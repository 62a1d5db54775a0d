import Mathlib.Data.List.Infix
import OpenAgent.Lib.Dict
import OpenAgent.Lib.Runs

namespace OpenAgent.Desktop.Loopbacks

open Py

section Credentials

structure VerifiedLoopbackTarget where
  networkName : String
  networkId : String
  handle : String
  coordinatorNodeId : String
  agentHandle : String
  agentNodeId : String
deriving DecidableEq

structure RememberedCredentialTarget extends VerifiedLoopbackTarget where
  accountId : String
deriving DecidableEq

structure RememberedCredentialRecord where
  password : String
  target : RememberedCredentialTarget
deriving DecidableEq

structure StartArgs where
  accountId : String
  password : String := ""
  agent : Option String := none
  ticket : Option String := none
  handle : Option String := none
  network : Option String := none
  remember : Option Bool := none
  attemptToken : Option Nat := none
deriving DecidableEq

/-- The white space and line terminators that `String.prototype.trim` removes. -/
def isBlank (c : Char) : Bool :=
  let n := c.toNat
  (9 ≤ n && n ≤ 13) || n == 0x20 || n == 0xa0 || n == 0x1680 || (0x2000 ≤ n && n ≤ 0x200a) || n == 0x2028 ||
    n == 0x2029 || n == 0x202f || n == 0x205f || n == 0x3000 || n == 0xfeff

def trim (value : String) : String :=
  String.ofList ((value.toList.dropWhile isBlank).reverse.dropWhile isBlank).reverse

class Platform where
  toLowerCase : String → String
  toLowerCase_trim : ∀ value, toLowerCase (trim (toLowerCase (trim value))) = toLowerCase (trim value)

def length (value : String) : Nat := (value.toList.map fun c => if c.toNat < 0x10000 then 1 else 2).sum

/-- `message.includes(needle)`. -/
def includes (message needle : String) : Bool := decide (needle.toList <:+: message.toList)

def isAccountId (accountId : String) : Bool :=
  1 ≤ accountId.toList.length && accountId.toList.length ≤ 128 &&
    accountId.toList.all fun c => c.isAlphanum || c == '_' || c == '-'

def isPassword (password : String) : Bool := password ≠ "" && length password ≤ 4096

variable [Platform]

def normalizedTargetValue (value : String) : String := Platform.toLowerCase (trim value)

def VerifiedLoopbackTarget.normalized (target : VerifiedLoopbackTarget) : VerifiedLoopbackTarget where
  networkName := normalizedTargetValue target.networkName
  networkId := normalizedTargetValue target.networkId
  handle := normalizedTargetValue target.handle
  coordinatorNodeId := normalizedTargetValue target.coordinatorNodeId
  agentHandle := normalizedTargetValue target.agentHandle
  agentNodeId := normalizedTargetValue target.agentNodeId

def normalizeTargetField (value : String) : Option String :=
  let normalized := Platform.toLowerCase (trim value)
  if normalized = "" || length normalized > 1024 ||
      normalized.toList.any (fun c => c.toNat ≤ 0x1f || c.toNat = 0x7f) then none
  else some normalized

def normalizeRememberedCredentialTarget (target : RememberedCredentialTarget) : Option RememberedCredentialTarget :=
  if isAccountId target.accountId then do
    let networkName ← normalizeTargetField target.networkName
    let networkId ← normalizeTargetField target.networkId
    let handle ← normalizeTargetField target.handle
    let coordinatorNodeId ← normalizeTargetField target.coordinatorNodeId
    let agentHandle ← normalizeTargetField target.agentHandle
    let agentNodeId ← normalizeTargetField target.agentNodeId
    return { accountId := target.accountId, networkName, networkId, handle, coordinatorNodeId, agentHandle,
             agentNodeId }
  else none

def asserts (value : Option String) (accepts : String → Bool) : Bool :=
  value.all fun value => trim value = "" || (normalizeTargetField value).any accepts

def isBlankField (value : Option String) : Bool := value.all fun value => trim value = ""

def rememberedCredentialMatchesRequest (record : RememberedCredentialRecord) (request : StartArgs) : Bool :=
  request.ticket.isNone && isAccountId request.accountId && request.accountId = record.target.accountId &&
    (isBlankField request.network || (asserts request.handle (fun handle => handle = record.target.handle) &&
        asserts request.network (fun network =>
          network = record.target.networkName || network = record.target.networkId) &&
        asserts request.agent (fun agent => agent = record.target.agentHandle)))

def isCredentialRejection (message : String) : Bool :=
  let normalized := Platform.toLowerCase message
  includes normalized "unauthorized" || includes normalized "invalid_credentials" ||
    includes normalized "invalid credentials" || includes normalized "wrong password" ||
    includes normalized "incorrect password"

def isRememberedCredentialTargetRejection (message : String) : Bool :=
  includes (Platform.toLowerCase message) "remembered credential"

def recordFor (accountId password : String) (target : RememberedCredentialTarget) : Option RememberedCredentialRecord :=
  if isAccountId accountId && isPassword password then
    (normalizeRememberedCredentialTarget target).bind fun target =>
      if target.accountId = accountId then some { password, target } else none
  else none

/-- `parseRecord`, of a decrypted record. -/
def parseRecord (accountId : String) (record : RememberedCredentialRecord) : Option RememberedCredentialRecord :=
  if isPassword record.password then
    (normalizeRememberedCredentialTarget record.target).bind fun target =>
      if target.accountId = accountId then some { record with target } else none
  else none

end Credentials

/-- The claim of a renderer: its attempt tokens, `none` being the session's, and the identity of its lifetime. -/
structure Claim where
  tokens : List (Option Nat)
  lifetime : Nat
deriving DecidableEq

/-- `RunningLoopback`; it is torn from the moment its teardown begins. -/
structure Loopback where
  account : String
  target : VerifiedLoopbackTarget
  torn : Bool := false
deriving DecidableEq

inductive TeardownStage where
  | hooking
  | stopping
deriving DecidableEq

structure Queued where
  id : Nat
  all : Bool
  claimed : Bool
deriving DecidableEq

/-- The stop of an account that is under way, and those behind it. -/
structure Teardown where
  id : Nat
  stage : TeardownStage := .hooking
  queue : List Queued := []
deriving DecidableEq

structure CredentialPreferenceLease where
  remember : Option Bool
  generation : Nat
deriving DecidableEq

/-- What a start waits for: the stops of its account, a native start, or the teardown of an unclaimed loopback. -/
inductive Stage where
  | barrier
  | flight
  | reaping (teardown loopback : Nat)
deriving DecidableEq

/-- A start under way; `remembered` is the credential of a `startRemembered`, `lifetime` that of the claim it is under. -/
structure Request where
  renderer : Nat
  args : StartArgs
  remembered : Option (RememberedCredentialRecord × StartArgs)
  lease : CredentialPreferenceLease
  lifetime : Nat
  stage : Stage := .barrier
deriving DecidableEq

namespace Request

def account (r : Request) : String := r.args.accountId

def expectedTarget (r : Request) : Option VerifiedLoopbackTarget :=
  r.remembered.map fun remembered => remembered.1.target.toVerifiedLoopbackTarget

end Request

/-- A port that was answered: whether the claim it was answered under was still there, and whether its loopback was
being torn down. -/
structure Reply where
  account : String
  loopback : Nat
  target : Option VerifiedLoopbackTarget
  claimed : Bool
  torn : Bool
  remembered : Option (RememberedCredentialRecord × StartArgs)
deriving DecidableEq

/-- A teardown that began: whether claims were held then, and whether all loopbacks were to be stopped. -/
structure Begun where
  loopback : Nat
  claimed : Bool
  all : Bool
deriving DecidableEq

structure Login where
  account : String
  password : String
  target : VerifiedLoopbackTarget
deriving DecidableEq

/-- The service, with every native loopback there has been, and the record of what was answered, torn down, logged in
and forgotten. -/
structure State where
  handles : Dict String Nat := .empty
  consumers : Dict (String × Nat) Claim := .empty
  lifetimes : Nat := 0
  observedRenderers : List Nat := []
  teardowns : Dict String Teardown := .empty
  stops : Nat := 0
  flights : Dict String Request := .empty
  orphans : List String := []
  requests : List Request := []
  generations : Dict String Nat := .empty
  vault : Dict String RememberedCredentialRecord := .empty
  available : Bool := true
  loopbacks : List Loopback := []
  replies : List Reply := []
  begun : List Begun := []
  logins : List Login := []
  forgotten : List String := []

section Consumers

variable (s : State)

def hasConsumers (account : String) : Bool := s.consumers.keys.any fun key => key.1 = account

def lifetimeOf (account : String) (renderer : Nat) : Option Nat :=
  (s.consumers.get? (account, renderer)).map Claim.lifetime

def claim (account : String) (renderer : Nat) (token : Option Nat) : State :=
  match s.consumers.get? (account, renderer) with
  | some c =>
    { s with
      consumers := s.consumers.set (account, renderer)
        { c with tokens := if token ∈ c.tokens then c.tokens else c.tokens ++ [token] } }
  | none =>
    { s with
      consumers := s.consumers.set (account, renderer) { tokens := [token], lifetime := s.lifetimes }
      lifetimes := s.lifetimes + 1 }

def release (account : String) (renderer : Nat) (token : Option Nat) : State :=
  match token, s.consumers.get? (account, renderer) with
  | none, _ => { s with consumers := s.consumers.erase (account, renderer) }
  | some _, none => s
  | some _, some c =>
    let tokens := c.tokens.erase token
    if tokens = [] then { s with consumers := s.consumers.erase (account, renderer) }
    else { s with consumers := s.consumers.set (account, renderer) { c with tokens } }

def clearAccount (account : String) : State :=
  { s with consumers := s.consumers.filter fun key _ => key.1 ≠ account }

def observeRenderer (renderer : Nat) : State :=
  { s with observedRenderers :=
      if renderer ∈ s.observedRenderers then s.observedRenderers else s.observedRenderers ++ [renderer] }

end Consumers

section Teardowns

variable (s : State)

def isTorn (loopback : Nat) : Bool := (s.loopbacks[loopback]?).any Loopback.torn

def beginTeardown (account : String) (loopback : Nat) (stop : Queued) (queue : List Queued) : State :=
  { s with
    teardowns := s.teardowns.set account { id := stop.id, queue }
    loopbacks := s.loopbacks.modify loopback fun lb => { lb with torn := true }
    begun := s.begun ++ [{ loopback, claimed := stop.claimed, all := stop.all }] }

/-- `stopLoopback`, with the stop that its caller awaits unless it is over at once. -/
def stopLoopback (account : String) (all : Bool) : State × Option Nat :=
  let stop : Queued := { id := s.stops, all, claimed := hasConsumers s account }
  let s := { clearAccount s account with stops := s.stops + 1 }
  match s.teardowns.get? account, s.handles.get? account with
  | some t, _ => ({ s with teardowns := s.teardowns.set account { t with queue := t.queue ++ [stop] } }, some stop.id)
  | none, some loopback => (beginTeardown s account loopback stop [], some stop.id)
  | none, none => (s, none)

def stopLoopbackIfUnclaimed (account : String) : State × Option Nat :=
  if hasConsumers s account then (s, none) else stopLoopback s account false

def releaseLoopbackClaim (account : String) (renderer : Nat) (token : Option Nat) : State :=
  (stopLoopbackIfUnclaimed (release s account renderer token) account).1

def stopAllLoopbacks : State := s.handles.keys.foldl (fun s account => (stopLoopback s account true).1) s

def emptiedBy (renderer : Nat) : List String :=
  (s.consumers.keys.filter fun key => key.2 = renderer).map Prod.fst |>.filter fun account =>
    s.consumers.keys.all fun key => key.1 ≠ account || key.2 = renderer

def rendererDestroyed (renderer : Nat) : State :=
  if renderer ∈ s.observedRenderers then
    let emptied := emptiedBy s renderer
    let s := { s with
      observedRenderers := s.observedRenderers.erase renderer
      consumers := s.consumers.filter fun key _ => key.2 ≠ renderer }
    emptied.foldl (fun s account => (stopLoopbackIfUnclaimed s account).1) s
  else s

end Teardowns

section Vault

variable (s : State)

def removeRememberedCredential (account : String) : State :=
  if isAccountId account then { s with vault := s.vault.erase account } else s

variable [Platform]

/-- `loadRememberedCredential`; a record that does not parse is deleted. -/
def loadRememberedCredential (account : String) : State × Option RememberedCredentialRecord :=
  if s.available then
    match s.vault.get? account with
    | none => (s, none)
    | some record =>
      match parseRecord account record with
      | some record => (s, some record)
      | none => ({ s with vault := s.vault.erase account }, none)
  else (s, none)

def saveRememberedCredential (account password : String) (target : RememberedCredentialTarget) : State :=
  match recordFor account password target with
  | some record => if s.available then { s with vault := s.vault.set account record } else s
  | none => s

/-- `begin` of the credential preferences, and the forgetting that it may ask for. -/
def beginPreference (account : String) (remember : Option Bool) : State × CredentialPreferenceLease :=
  let previous := (s.generations.get? account).getD 0
  match remember with
  | none => (s, { remember, generation := previous })
  | some true =>
    ({ s with
       generations := s.generations.set account (previous + 1)
       forgotten := s.forgotten.filter (fun a => a ≠ account) },
     { remember, generation := previous + 1 })
  | some false =>
    (removeRememberedCredential
       { s with
         generations := s.generations.set account (previous + 1)
         forgotten := account :: s.forgotten } account,
     { remember, generation := previous + 1 })

end Vault

section Starts

variable (s : State)

def answer (r : Request) (loopback : Nat) : State :=
  { s with
    replies := s.replies ++
      [{ account := r.account, loopback, target := (s.loopbacks[loopback]?).map Loopback.target
         claimed := lifetimeOf s r.account r.renderer = some r.lifetime, torn := isTorn s loopback
         remembered := r.remembered }] }

def afterStart (r : Request) (loopback : Nat) : State :=
  match stopLoopbackIfUnclaimed s r.account with
  | (s, none) => answer s r loopback
  | (s, some teardown) => { s with requests := s.requests ++ [{ r with stage := .reaping teardown loopback }] }

variable [Platform]

def shouldSaveAuthenticatedOwner (r : Request) : Bool :=
  r.lease.remember = some true && s.generations.get? r.account = some r.lease.generation

def persistOwner (r : Request) (target : VerifiedLoopbackTarget) : State :=
  if shouldSaveAuthenticatedOwner s r then
    saveRememberedCredential s r.account r.args.password { target with accountId := r.account }
  else s

/-- The `catch` of a handler. -/
def failStart (r : Request) (message : String) : State :=
  let s := releaseLoopbackClaim s r.account r.renderer r.args.attemptToken
  if isCredentialRejection message || (r.remembered.isSome && isRememberedCredentialTargetRejection message) then
    removeRememberedCredential s r.account
  else s

/-- `startLoopback` behind the stop barrier. -/
def proceedStart (r : Request) : State :=
  match s.handles.get? r.account with
  | some loopback =>
    if r.expectedTarget.all fun expected => (s.loopbacks[loopback]?).any fun lb => lb.target = expected then
      afterStart s r loopback
    else failStart s r "remembered credential target does not match the running loopback"
  | none =>
    { s with
      flights := if (s.flights.get? r.account).isSome then s.flights else s.flights.set r.account r
      requests := s.requests ++ [{ r with stage := .flight }] }

def startLoopback (renderer : Nat) (args : StartArgs)
    (remembered : Option (RememberedCredentialRecord × StartArgs)) : State :=
  let (s, lease) := beginPreference s args.accountId args.remember
  let r : Request :=
    { renderer, args, remembered, lease, lifetime := (lifetimeOf s args.accountId renderer).getD s.lifetimes }
  if (s.teardowns.get? args.accountId).isSome then { s with requests := s.requests ++ [r] } else proceedStart s r

/-- The checks of `validateStartArgs` that types do not make. -/
def validStartArgs (args : StartArgs) (requiresPassword : Bool) : Bool :=
  let given (value : Option String) := value.any fun value => value ≠ ""
  (!requiresPassword || given args.ticket || (given args.handle && given args.network)) &&
    args.attemptToken.all fun token => 0 < token && token < 2 ^ 53

/-- `loopback:start`. -/
def handleStart (renderer : Nat) (args : StartArgs) : State :=
  if validStartArgs args true then
    startLoopback (claim (observeRenderer s renderer) args.accountId renderer args.attemptToken) renderer args none
  else s

/-- `loopback:startRemembered`. -/
def handleStartRemembered (renderer : Nat) (args : StartArgs) : State :=
  if validStartArgs args false then
    let s := observeRenderer s renderer
    if isAccountId args.accountId then
      match loadRememberedCredential s args.accountId with
      | (s, none) => s
      | (s, some credential) =>
        if rememberedCredentialMatchesRequest credential args then
          startLoopback (claim s args.accountId renderer args.attemptToken) renderer
            { accountId := args.accountId, password := credential.password
              handle := some credential.target.handle, network := some credential.target.networkName
              agent := some credential.target.agentHandle, attemptToken := args.attemptToken }
            (some (credential, args))
        else removeRememberedCredential s args.accountId
    else s
  else s

def isFlying (account : String) (r : Request) : Bool := r.account = account && r.stage = .flight

def landed (account : String) : State × List Request :=
  ({ s with
     flights := s.flights.erase account
     requests := s.requests.filter fun r => !isFlying account r },
   s.requests.filter (isFlying account))

def failFlight (account message : String) : State :=
  let (s, waiting) := landed s account
  waiting.foldl (fun s r => failStart s r message) s

def installLoopback (owner : Request) (target : VerifiedLoopbackTarget) : State :=
  { (landed s owner.account).1 with
    loopbacks := s.loopbacks ++ [{ account := owner.account, target }]
    handles := s.handles.set owner.account s.loopbacks.length
    logins := s.logins ++ [{ account := owner.account, password := owner.args.password, target }] }

def finishFlight (owner : Request) (target : VerifiedLoopbackTarget) (hook : Option String) : State :=
  let loopback := s.loopbacks.length
  let waiting := (landed s owner.account).2
  let s := installLoopback s owner target
  match hook with
  | some message => waiting.foldl (fun s r => failStart s r message) s
  | none => waiting.foldl (fun s r => afterStart s r loopback) (persistOwner s owner target)

def isReaping (done : List Nat) (r : Request) : Bool :=
  match r.stage with
  | .reaping teardown _ => done.contains teardown
  | .barrier | .flight => false

def answerReaped (r : Request) : State :=
  match r.stage with
  | .reaping _ loopback => answer s r loopback
  | .barrier | .flight => s

def resolveStops (done : List Nat) : State :=
  (s.requests.filter (isReaping done)).foldl answerReaped
    { s with requests := s.requests.filter fun r => !isReaping done r }

def isBarred (account : String) (r : Request) : Bool := r.account = account && r.stage = .barrier

def liftBarrier (account : String) : State :=
  (s.requests.filter (isBarred account)).foldl (fun s r => proceedStart s r)
    { s with
      teardowns := s.teardowns.erase account
      requests := s.requests.filter fun r => !isBarred account r }

def settleStops (account : String) (done : List Nat) (queue : List Queued) : State :=
  match queue with
  | [] => liftBarrier (resolveStops s done) account
  | stop :: queue =>
    match s.handles.get? account with
    | some loopback =>
      beginTeardown (resolveStops s done) account loopback
        { stop with claimed := stop.claimed || hasConsumers s account } queue
    | none => settleStops account (stop.id :: done) queue

def getPort (renderer : Nat) (account : String) : State :=
  if account = "" then s
  else match s.handles.get? account with
  | some loopback =>
    let s := claim (observeRenderer s renderer) account renderer none
    { s with
      replies := s.replies ++
        [{ account, loopback, target := (s.loopbacks[loopback]?).map Loopback.target
           claimed := (lifetimeOf s account renderer).isSome, torn := isTorn s loopback, remembered := none }] }
  | none => s

end Starts

inductive Event where
  | start (renderer : Nat) (args : StartArgs)
  | startRemembered (renderer : Nat) (args : StartArgs)
  | stop (renderer : Nat) (account : String)
  | releaseAttempt (renderer : Nat) (account : String) (token : Nat)
  | getPort (renderer : Nat) (account : String)
  | destroyed (renderer : Nat)
  | stopAll
  | removeCredential (account : String)
  | keychain (available : Bool)
  | nativeFinishes (account : String) (found : VerifiedLoopbackTarget) (hook : Option String)
  | nativeFails (account message : String)
  | nativeTimesOut (account : String)
  | orphanFinishes (index : Nat) (found : VerifiedLoopbackTarget)
  | hookEnds (account : String)
  | nativeStops (account : String)
  | barrierExpires (index : Nat)
  | reapingExpires (index : Nat)

variable [Platform]

def next (s : State) (event : Event) : Option State :=
  match event with
  | .start renderer args => some (handleStart s renderer args)
  | .startRemembered renderer args => some (handleStartRemembered s renderer args)
  | .stop renderer account => some (releaseLoopbackClaim s account renderer none)
  | .releaseAttempt renderer account token =>
    some (if 0 < token && token < 2 ^ 53 then releaseLoopbackClaim s account renderer (some token) else s)
  | .getPort renderer account => some (getPort s renderer account)
  | .destroyed renderer => some (rendererDestroyed s renderer)
  | .stopAll => some (stopAllLoopbacks s)
  | .removeCredential account =>
    some (removeRememberedCredential
       { s with forgotten := account :: s.forgotten } account)
  | .keychain available => some { s with available }
  | .nativeFinishes account found hook =>
    match s.flights.get? account with
    | some owner =>
      if owner.expectedTarget.all fun expected => found.normalized = expected then
        some (finishFlight s owner found.normalized hook)
      else none
    | none => none
  | .nativeFails account message =>
    if (s.flights.get? account).isSome then some (failFlight s account message) else none
  | .nativeTimesOut account =>
    if (s.flights.get? account).isSome then
      some { failFlight s account "loopback startup timed out after 30000ms" with orphans := s.orphans ++ [account] }
    else none
  | .orphanFinishes i found =>
    (s.orphans[i]?).map fun account =>
      { s with
        orphans := s.orphans.eraseIdx i
        loopbacks := s.loopbacks ++ [{ account, target := found.normalized, torn := true }] }
  | .hookEnds account =>
    match s.teardowns.get? account with
    | some t =>
      if t.stage = .hooking then
        some { s with
          handles := s.handles.erase account
          teardowns := s.teardowns.set account { t with stage := .stopping } }
      else none
    | none => none
  | .nativeStops account =>
    match s.teardowns.get? account with
    | some t => if t.stage = .stopping then some (settleStops s account [t.id] t.queue) else none
    | none => none
  | .barrierExpires i =>
    match s.requests[i]? with
    | some r =>
      if r.stage = .barrier then
        some (failStart { s with requests := s.requests.eraseIdx i } r "secure tunnel shutdown timed out after 25000ms")
      else none
    | none => none
  | .reapingExpires i =>
    match s.requests[i]? with
    | some r =>
      match r.stage with
      | .reaping _ _ =>
        some (failStart { s with requests := s.requests.eraseIdx i } r "secure tunnel teardown timed out after 25000ms")
      | .barrier | .flight => none
    | none => none

end OpenAgent.Desktop.Loopbacks
