/-! Vectors of level space, in single precision, and triples of vertex indices. Every operation rounds each
of its steps. -/

namespace LevelPlay

structure Vec3 where
  x : Float32
  y : Float32
  z : Float32

/-- Three integers: the vertex indices of a triangle. -/
structure IntVec3 where
  x : Int
  y : Int
  z : Int
  deriving DecidableEq, Repr

namespace Vec3

def zero : Vec3 := ⟨0, 0, 0⟩

def one : Vec3 := ⟨1, 1, 1⟩

def add (v w : Vec3) : Vec3 := ⟨v.x + w.x, v.y + w.y, v.z + w.z⟩

def mul (v w : Vec3) : Vec3 := ⟨v.x * w.x, v.y * w.y, v.z * w.z⟩

def scale (v : Vec3) (a : Float32) : Vec3 := ⟨v.x * a, v.y * a, v.z * a⟩

def dot (v w : Vec3) : Float32 := (v.x * w.x + v.y * w.y) + v.z * w.z

def cross (v w : Vec3) : Vec3 :=
  ⟨v.y * w.z - v.z * w.y, v.z * w.x - v.x * w.z, v.x * w.y - v.y * w.x⟩

instance : Add Vec3 := ⟨add⟩
instance : Mul Vec3 := ⟨mul⟩
instance : Inhabited Vec3 := ⟨zero⟩

end Vec3

end LevelPlay
