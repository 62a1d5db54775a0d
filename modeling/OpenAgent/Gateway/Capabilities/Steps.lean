import OpenAgent.Gateway.Capabilities.Calls

namespace OpenAgent.Gateway.Capabilities

open Py

/-- What resumes a suspended `call_tool`. -/
inductive Resume
  | recorded (outcome : Except PyException Unit)
  | sent (outcome : Except PyException Bool)
  | resultReady
  | timeout
  | cancelled
  | cancelSent
  | connectionChanged

inductive Event
  | register (hello : Hello)
  | updateCatalog (conn : ConnId) (generation : Int) (servers : Except ClientCapabilityError Catalog)
  | unregister (conn : ConnId) (code message : String)
  | closeDevice (deviceId reason : String) (revocationEpoch : Option Int)
  | reapStale (sweep : Nat) (checkedAt maxIdle : Int)
  | closeAll (sweep : Nat)
  | resumeSweep (sweep : Nat)
  | cancelSweep (sweep : Nat)
  | socketClosed (conn : ConnId)
  | heartbeat (conn : ConnId)
  | callTool (id : CallId) (request : ToolCall)
  | resume (id : CallId) (what : Resume)
  | resolveResult (conn : ConnId) (frame : ResultFrame)
  | receiveToolEvent (conn : ConnId) (frame : ToolEventFrame)
  | receiveChunk (conn : ConnId) (frame : ChunkFrame)

namespace World

def setSweep (w : World) (n : Nat) (s : Option Sweep) : World :=
  { w with sweeps := Function.update w.sweeps n s }

def resumeSweep (w : World) (now : Int) : Sweep → World × Option Sweep
  | .reap stale expired => w.reapRest now expired stale
  | .shutdown rest => w.closeRest now rest

def resume (w : World) (id : CallId) (t : CallTask) (now : Int) : Resume → Option World
  | .recorded outcome =>
    if t.phase = .recording then some (w.recordDone id t outcome now) else none
  | .sent outcome => if t.phase = .sending then some (w.sendDone id t outcome now) else none
  | .resultReady => if t.phase = .awaitingResult then w.resultReady id t now else none
  | .timeout => w.callTimeout id t
  | .cancelled => w.callCancel id t
  | .cancelSent =>
    match t.phase with
    | .cancelling cause => some (w.cancelDone id t cause)
    | _ => none
  | .connectionChanged => if t.phase = .reconnecting then some (w.reconnect id t now) else none

end World

variable [Sha256]

/-- One event at a wall-clock time; `none` where nothing that could cause it is pending. -/
def step (w : World) (e : Int × Event) : Option World :=
  let now := e.1
  match e.2 with
  | .register hello => some (w.register hello now).1
  | .updateCatalog c generation servers =>
    if c < w.nextConn then some (w.updateCatalog c generation servers).1 else none
  | .unregister c code message =>
    if c < w.nextConn then some (w.unregister c code message now) else none
  | .closeDevice deviceId reason revocationEpoch =>
    some (w.closeDevice deviceId reason revocationEpoch now)
  | .reapStale n checkedAt maxIdle =>
    match w.sweeps n with
    | some _ => none
    | none => some ((w.reapStale checkedAt maxIdle now).1.setSweep n (w.reapStale checkedAt maxIdle now).2)
  | .closeAll n =>
    match w.sweeps n with
    | some _ => none
    | none => some ((w.closeAll now).1.setSweep n (w.closeAll now).2)
  | .resumeSweep n =>
    (w.sweeps n).map (fun s => (w.resumeSweep now s).1.setSweep n (w.resumeSweep now s).2)
  | .cancelSweep n => (w.sweeps n).map (fun _ => w.setSweep n none)
  | .socketClosed c =>
    if c < w.nextConn then some (w.setConn c (fun conn => { conn with wsClosed := true })) else none
  | .heartbeat c =>
    if c < w.nextConn then some (w.setConn c (fun conn => { conn with lastSeenAt := now })) else none
  | .callTool id request =>
    match w.calls id with
    | some _ => none
    | none => some (w.callTool id request now)
  | .resume id what => (w.calls id).bind (fun t => w.resume id t now what)
  | .resolveResult c frame =>
    if c < w.nextConn then some (w.resolveResult c frame now).1 else none
  | .receiveToolEvent c frame =>
    if c < w.nextConn then some (w.receiveToolEvent c frame now).1 else none
  | .receiveChunk c frame => if c < w.nextConn then some (w.receiveChunk c frame).1 else none

/-- What an event does to the world. -/
inductive Stepped (w : World) (now : Int) : Event → World → Prop
  | refused {hello} : Stepped w now (.register hello) w
  | registered {hello conn} (h : w.accept hello = .ok conn) : Stepped w now (.register hello) (w.commitRegister conn now)
  | updated {c generation servers} (h : c < w.nextConn) :
      Stepped w now (.updateCatalog c generation servers) (w.updateCatalog c generation servers).1
  | unregistered {c code message} (h : c < w.nextConn) :
      Stepped w now (.unregister c code message) (w.unregister c code message now)
  | closed {device reason epoch} : Stepped w now (.closeDevice device reason epoch) (w.closeDevice device reason epoch now)
  | reaped {n checkedAt maxIdle} (h : w.sweeps n = none) : Stepped w now (.reapStale n checkedAt maxIdle)
      ((w.reapStale checkedAt maxIdle now).1.setSweep n (w.reapStale checkedAt maxIdle now).2)
  | closedAll {n} (h : w.sweeps n = none) :
      Stepped w now (.closeAll n) ((w.closeAll now).1.setSweep n (w.closeAll now).2)
  | resumedSweep {n s} (h : w.sweeps n = some s) :
      Stepped w now (.resumeSweep n) ((w.resumeSweep now s).1.setSweep n (w.resumeSweep now s).2)
  | cancelledSweep {n s} (h : w.sweeps n = some s) : Stepped w now (.cancelSweep n) (w.setSweep n none)
  | socketClosed {c} (h : c < w.nextConn) :
      Stepped w now (.socketClosed c) (w.setConn c fun conn => { conn with wsClosed := true })
  | beat {c} (h : c < w.nextConn) : Stepped w now (.heartbeat c) (w.setConn c fun conn => { conn with lastSeenAt := now })
  | called {id request} (h : w.calls id = none) : Stepped w now (.callTool id request) (w.callTool id request now)
  | resumed {id what t v} (h : w.calls id = some t) (hr : w.resume id t now what = some v) :
      Stepped w now (.resume id what) v
  | resolved {c frame} (h : c < w.nextConn) : Stepped w now (.resolveResult c frame) (w.resolveResult c frame now).1
  | told {c frame} (h : c < w.nextConn) : Stepped w now (.receiveToolEvent c frame) (w.receiveToolEvent c frame now).1
  | received {c frame} (h : c < w.nextConn) : Stepped w now (.receiveChunk c frame) (w.receiveChunk c frame).1

theorem stepped {w v : World} {now : Int} {e : Event} (h : step w (now, e) = some v) : Stepped w now e v := by
  cases e with
  | register hello =>
    cases h
    rw [World.register]
    cases ha : w.accept hello with
    | error e => exact .refused
    | ok conn => exact .registered ha
  | closeDevice =>
    cases h
    exact .closed
  | reapStale | closeAll | callTool =>
    simp only [step] at h
    split at h <;> cases h
    constructor
    assumption
  | resumeSweep | cancelSweep =>
    obtain ⟨s, hs, rfl⟩ := Option.map_eq_some_iff.mp h
    constructor
    exact hs
  | resume =>
    obtain ⟨t, ht, hr⟩ := Option.bind_eq_some_iff.mp h
    exact .resumed ht hr
  | updateCatalog | unregister | socketClosed | heartbeat | resolveResult | receiveToolEvent | receiveChunk =>
    obtain ⟨hc, ⟨⟩⟩ := Option.ite_none_right_eq_some.mp h
    constructor
    exact hc

def start (backgroundJobs recordsDeviceUse : Bool) : World := { backgroundJobs, recordsDeviceUse }

def Reachable (w : World) : Prop := ∃ jobs recorder, Runs.Reaches step (start jobs recorder) w

def ReachableUnder (C : World → Int × Event → Prop) (w : World) : Prop :=
  ∃ jobs recorder, Runs.ReachesUnder step C (start jobs recorder) w

def notesCatalog : Catalog := Dict.empty.set "notes" ⟨[⟨"write", .obj [], .mutating, []⟩]⟩

def laptopHello (authEpoch : Int) : Hello :=
  { deviceId := "device", accountId := "account", clientInstanceId := "instance", generation := some 1
    deviceLabel := "laptop", servers := .ok notesCatalog, authEpoch := some authEpoch }

def laptopOrigin : TurnExecutionOrigin := ⟨"device", "instance", 1, 0, .null⟩

def writeNote (sessionId : Option String) : ToolCall :=
  { origin := laptopOrigin, serverName := "notes", toolName := "write", args := none, sessionId
    timeout := 1000, executionContext := none, sourceId := none
    argumentsSha256 := some "44136fa355b3678a1146ad16f7e8649e94fb4fc21fe77e8310c060f61caaff8a" }

abbrev noDigest : Sha256 := ⟨fun _ => ""⟩

def shellCatalog : Catalog := Dict.empty.set "shell" ⟨[⟨"shell_exec", .obj [], .mutating, []⟩]⟩

def shellHello (authEpoch : Int) : Hello :=
  { laptopHello authEpoch with servers := .ok shellCatalog, currentAuthEpoch := some authEpoch }

def startShell : ToolCall :=
  { origin := laptopOrigin, serverName := "shell", toolName := "shell_exec"
    args := some (.obj [("run_in_background", .bool true)]), sessionId := some "session", timeout := 1000
    executionContext := some ⟨"context", some "session", false, ["source"]⟩, sourceId := some "source"
    argumentsSha256 := some "957d380ccd3f3e1f213564787b8f5cf14c566315cd18f1f47c7c51def6e40bac" }

def shellStarted : ResultFrame :=
  { callId := "call", generation := 1, result := some (.obj [("shell_id", .str "shell-1")]) }

abbrev shellDigest : Sha256 :=
  ⟨fun bytes => if bytes = "device\x00instance\x001\x00shell-1".toUTF8.toList then
    "95253f01bcfa75ca8c7e62835e67714333522907fe455a95caa7b7a3ea0c56e7" else ""⟩

end OpenAgent.Gateway.Capabilities
