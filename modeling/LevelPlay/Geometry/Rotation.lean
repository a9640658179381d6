import LevelPlay.Geometry.Vector

/-! Rotations as unit quaternions. Level text gives a rotation in degrees around the three axes; it turns
around Z first, then around X, then around Y. -/

namespace LevelPlay

/-- A rotation: a quaternion with vector part `x`, `y`, `z` and scalar part `w`. -/
structure Rotation where
  x : Float32
  y : Float32
  z : Float32
  w : Float32

namespace Rotation

def identity : Rotation := ⟨0, 0, 0, 1⟩

instance : Inhabited Rotation := ⟨identity⟩

/-- First `r`, then `l`. -/
def mul (l r : Rotation) : Rotation where
  x := (l.w * r.x + l.x * r.w) + (l.y * r.z - l.z * r.y)
  y := (l.w * r.y - l.x * r.z) + (l.y * r.w + l.z * r.x)
  z := (l.w * r.z + l.x * r.y) + (l.z * r.w - l.y * r.x)
  w := (l.w * r.w - l.x * r.x) + (-(l.y * r.y) - l.z * r.z)

instance : Mul Rotation := ⟨mul⟩

/-- The turn by `angle` radians around the X axis. -/
def aroundX (angle : Float32) : Rotation := ⟨(angle * 0.5).sin, 0, 0, (angle * 0.5).cos⟩

def aroundY (angle : Float32) : Rotation := ⟨0, (angle * 0.5).sin, 0, (angle * 0.5).cos⟩

def aroundZ (angle : Float32) : Rotation := ⟨0, 0, (angle * 0.5).sin, (angle * 0.5).cos⟩

/-- One degree in radians: the single-precision number nearest to pi, divided by 180. -/
def radiansPerDegree : Float32 := (3.14159265358979323846 : Float32) / 180

/-- The rotation given by degrees around the axes: Z is applied first, then X, then Y. -/
def ofDegrees (degrees : Vec3) : Rotation :=
  let radians := degrees.scale radiansPerDegree
  aroundY radians.y * aroundX radians.x * aroundZ radians.z

def apply (q : Rotation) (v : Vec3) : Vec3 :=
  let b : Vec3 := ⟨q.x, q.y, q.z⟩
  (v.scale (q.w * q.w - b.dot b) + b.scale (v.dot b * 2)) + (b.cross v).scale (q.w * 2)

end Rotation

end LevelPlay
