import LevelPlay.CommandLine
import LevelPlay.Engine.Step
import LevelPlay.Level

/-! Playback: a level is loaded, scripts are launched, and the engine is stepped once a frame against a host
that keeps its calls. The trace keeps the frames in which something happened. -/

namespace LevelPlay

/-- A frame in which something happened. -/
structure TracedFrame where
  frame : Nat
  report : Report

structure Trace where
  frames : Array TracedFrame
  calls : Array HostCall
  stillRunning : List Int

namespace Trace

def frameToJson (traced : TracedFrame) : Json :=
  .object (("frame", .int traced.frame) :: traced.report.members)

def toJson (trace : Trace) : Json :=
  .object
    [("frames", .ofList frameToJson trace.frames.toList),
      ("host_calls", .ofList HostCall.toJson trace.calls.toList),
      ("still_running", .ofList .int trace.stillRunning)]

end Trace

/-- The state of playback between two frames. -/
structure Playback where
  engine : Engine
  recorder : Recorder
  frames : Array TracedFrame

namespace Playback

def ofEngine (engine : Engine) : Playback := ⟨engine, .rejecting [], #[]⟩

def timeOf (frameTime : Float) (frame : Nat) : Float :=
  frame.toFloat * frameTime

def playFrame (frameTime : Float) (playback : Playback) (frame : Nat) : Playback :=
  let ⟨engine, recorder, frames⟩ := playback
  let ⟨engine, recorder, report⟩ :=
    engine.step Recorder.host { recorder with frame } (timeOf frameTime frame)
  ⟨engine, recorder, if report.isIdle then frames else frames.push ⟨frame, report⟩⟩

def playFrom (frameTime : Float) (first : Nat) (playback : Playback) : Nat → Playback
  | 0 => playback
  | count + 1 => playFrom frameTime (first + 1) (playback.playFrame frameTime first) count

def trace (playback : Playback) : Trace where
  frames := playback.frames
  calls := playback.recorder.calls
  stillRunning := playback.engine.runningIds

/-- Launches scripts in order; of the first that cannot be started, tells the launch and the reason. -/
def launchAll (engine : Engine) : List Launch → Except (Launch × ScriptError) Engine
  | [] => .ok engine
  | launch :: rest =>
    match engine.start launch with
    | .error e => .error (launch, e)
    | .ok (_, engine) => launchAll engine rest

def play (engine : Engine) (frames : Nat) (frameTime : Float) : Trace :=
  (playFrom frameTime 0 (ofEngine engine) frames).trace

/-! ### The program -/

structure Options where
  level : Path
  lenient : Bool
  launches : List Launch
  frames : Nat
  frameTime : Float
  levelFile : Option Path
  traceFile : Option Path

def optionTable : CommandLine.OptionTable where
  flags := ["lenient", "verbose"]
  valued := ["level", "run", "frames", "frame-time", "level-json", "trace-json"]

/-- Options as they are written: the launches are not read yet. -/
structure RawOptions where
  level : Path
  lenient : Bool
  launches : List String
  frames : Nat
  frameTime : Float
  levelFile : Option Path
  traceFile : Option Path

/-- The options on a command line; nothing for a usage error. -/
def rawOptions? (arguments : List String) : Option RawOptions := do
  let arguments ← CommandLine.scan optionTable arguments
  let level ← CommandLine.readValue? arguments "level" none fun text => (CommandLine.path? text).map some
  let level ← level
  let lenient ← CommandLine.flag? arguments "lenient"
  let _ ← CommandLine.flag? arguments "verbose"
  let frames ← CommandLine.readValue? arguments "frames" 60 fun text => Decimal.count? text.toList
  let frameTime ← CommandLine.readValue? arguments "frame-time" (1.0 / 60.0) Decimal.number?
  let levelFile ← CommandLine.readValue? arguments "level-json" none fun text =>
    (CommandLine.path? text).map some
  let traceFile ← CommandLine.readValue? arguments "trace-json" none fun text =>
    (CommandLine.path? text).map some
  if (CommandLine.plains arguments).isEmpty then
    return { level, lenient, launches := CommandLine.values arguments "run", frames, frameTime, levelFile,
             traceFile }
  else failure

def parseLaunches : List String → Except LaunchError (List Launch)
  | [] => .ok []
  | spec :: rest => do
    let launch ← Launch.parse spec
    let launches ← parseLaunches rest
    return launch :: launches

/-- Reads a command line. The time of a frame has to be positive. -/
def parse (arguments : List String) : Except Rejection Options :=
  match rawOptions? arguments with
  | none => .error .usage
  | some raw =>
    if raw.frameTime > 0 then
      match parseLaunches raw.launches with
      | .error e => .error (.failure e.failure)
      | .ok launches =>
        .ok { level := raw.level, lenient := raw.lenient, launches, frames := raw.frames,
              frameTime := raw.frameTime, levelFile := raw.levelFile, traceFile := raw.traceFile }
    else .error (.failure ⟨s!"--frame-time must be positive, got {Decimal.plain raw.frameTime}", []⟩)

def idList (ids : List Int) : String :=
  "[" ++ ", ".intercalate (ids.map toString) ++ "]"

def frameLine (frameTime : Float) (traced : TracedFrame) : String :=
  let report := traced.report
  let frame := Text.alignRight 5 (toString traced.frame)
  let time := Text.alignRight 8 (Decimal.fixed 3 (.ofFloat (timeOf frameTime traced.frame)))
  let executed := Text.alignRight 4 (toString report.executed)
  s!"frame {frame} t={time}s  executed {executed}  finished {idList report.finished.toList}" ++
    if report.budgetExhausted then "  (budget exhausted)" else ""

/-- Writes a document if there is a path for it, and says so. -/
def saveDocument (what : String) (path : Option Path) (document : Json) : List Action :=
  match path with
  | none => []
  | some path => [.save path document.pretty s!"writing {what} to {path}", .print s!"Saved {what} to {path}"]

def loadedLine (level : Level) : String :=
  let name := level.name.getD "<unnamed level>"
  let counts := s!"{level.sectors.length} sectors, {level.planes.size} plane defs, {level.scripts.size} scripts"
  s!"Loaded {name}: {counts}"

/-- What is done once the level is loaded. -/
def loadedActions (options : Options) (level : Level) : List Action :=
  .print (loadedLine level) :: saveDocument "level model" options.levelFile level.toJson

def traceActions (options : Options) (trace : Trace) : List Action :=
  let still :=
    if trace.stillRunning.isEmpty then []
    else [.print s!"Still running after {options.frames} frames: {idList trace.stillRunning}"]
  trace.frames.toList.map (fun traced => .print (frameLine options.frameTime traced)) ++ still ++
    saveDocument "script trace" options.traceFile trace.toJson

def loadFailure (message : String) (error : LoadError) : Failure :=
  ⟨message, error.message :: error.cause?.toList⟩

def run (options : Options) (files : FileReader) : Run :=
  match Level.ofFile (.ofLenient options.lenient) files options.level with
  | .error e => .ofFailure (loadFailure s!"loading level {options.level}" e)
  | .ok level =>
    let actions := loadedActions options level
    match launchAll (.ofScripts level.scripts) options.launches with
    | .error (launch, e) => ⟨actions, some ⟨s!"starting script {Launch.text launch}", [e.message]⟩⟩
    | .ok engine =>
      .ofActions (actions ++ traceActions options (play engine options.frames options.frameTime))

end Playback

end LevelPlay
