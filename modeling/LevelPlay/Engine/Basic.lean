import LevelPlay.Engine.Command

/-! The engine's state: which scripts there are, and for each the instance of it that is running, if one is.
A script runs at most once at a time. -/

namespace LevelPlay

/-- A running script: the next instruction, the numbers it was started with, of which the first is its own
id, and the time from which on it may go on. -/
structure Instance where
  next : Nat
  arguments : List Float
  wakeAt : Float

/-- A script, and its running instance. -/
structure Slot where
  script : Script
  active : Option Instance

/-- The scripts of a level with their running instances, and the time of the last step. -/
structure Engine where
  slots : IdMap Slot
  now : Float

namespace Engine

def ofScripts (scripts : Scripts) : Engine where
  slots := scripts.map fun _ script => ⟨script, none⟩
  now := 0.0

def size (engine : Engine) : Nat :=
  engine.slots.size

def isEmpty (engine : Engine) : Bool :=
  engine.slots.isEmpty

def script? (engine : Engine) (id : Int) : Option Script :=
  (engine.slots.get? id).map Slot.script

def instance? (engine : Engine) (id : Int) : Option Instance :=
  (engine.slots.get? id).bind Slot.active

def isRunning (engine : Engine) (id : Int) : Bool :=
  (engine.instance? id).isSome

def Instance.isReady (i : Instance) (now : Float) : Bool :=
  i.wakeAt ≤ now

/-- Whether a script is running and may go on at a time. -/
def isReady (engine : Engine) (id : Int) (now : Float) : Bool :=
  (engine.instance? id).any fun i => Instance.isReady i now

/-- The ids of the running scripts, in ascending order. -/
def runningIds (engine : Engine) : List Int :=
  engine.slots.idsWhere fun slot => slot.active.isSome

/-- The ids of the scripts that may go on at a time, in ascending order. -/
def readyIds (engine : Engine) (now : Float) : List Int :=
  engine.slots.idsWhere fun slot => slot.active.any fun i => Instance.isReady i now

/-! ### Changes of one script's instance -/

def setInstance (engine : Engine) (id : Int) (active : Option Instance) : Engine :=
  { engine with slots := engine.slots.modify id fun slot => { slot with active } }

def mapInstance (engine : Engine) (id : Int) (f : Instance → Instance) : Engine :=
  { engine with slots := engine.slots.modify id fun slot => { slot with active := slot.active.map f } }

def stop (engine : Engine) (id : Int) : Engine :=
  engine.setInstance id none

/-- The id of the script to start, the first of its arguments. -/
def startId : List Float → Except ScriptError Int
  | [] => .error .missingId
  | x :: _ =>
    match Decimal.idOfFloat? x with
    | some id => .ok id
    | none => .error (.invalidId x)

/-- Starts the script that the first argument names; it may go on at once. Tells its id. -/
def start (engine : Engine) (arguments : List Float) : Except ScriptError (Int × Engine) := do
  let id ← startId arguments
  match engine.slots.get? id with
  | none => throw (.unknownScript id)
  | some slot =>
    if slot.active.isSome then throw (.alreadyRunning id)
    else return (id, engine.setInstance id (some ⟨0, arguments, engine.now⟩))

end Engine

end LevelPlay
