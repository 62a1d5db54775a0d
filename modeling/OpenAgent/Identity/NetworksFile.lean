import Mathlib.Data.List.Basic
import OpenAgent.Lib.Toml

namespace NetworksFile

open Toml (Number Value Pairs Document Legible)

abbrev Text := List Char

inductive Program
  | typescript
  | python
deriving DecidableEq

class Platform where
  Time : Type
  decTime : DecidableEq Time
  ofNat : Nat → Time
  exceeds : Time → Nat → Bool
  float : Text → Option Time
  /-- `${n}` and `f"{n}"`. -/
  shown : Program → Time → Text
  /-- `str.isalnum` of one character. -/
  isalnum : Char → Bool
  smolToml : Toml.Reader float
  tomllib : Toml.Reader float
  shown_plain : ∀ p x, Legible (shown p x) ∧ (shown p x).head? ≠ some '"' ∧ (shown p x).head? ≠ some '['
  shown_read : ∀ p x, Toml.number float (shown p x) = some (.float x) ∨
    ∃ n, Toml.number float (shown p x) = some (.integer n) ∧ ofNat n = x
  isalnum_underscore : isalnum '_' = false
  isalnum_legible : ∀ c, isalnum c = true → Toml.control c = false

variable [Platform]

instance : DecidableEq Platform.Time := Platform.decTime

def SCHEMA_VERSION : Nat := 1

structure StoredNetwork where
  name : Text
  networkId : Text
  coordinatorNodeId : Text
  coordinatorPubkeyHex : Text
  handle : Text
  addedAt : Platform.Time
  certPath : Text
  lastLoginAt : Option Platform.Time
  coordinatorRelayUrl : Option Text
  coordinatorAddresses : List Text
deriving DecidableEq

structure NetworkStore where
  networks : List StoredNetwork
  activeNetwork : Option Text
  activeAgent : Option Text
  schemaVersion : Number Platform.Time

def emptyStore : NetworkStore := ⟨[], none, none, .integer SCHEMA_VERSION⟩

/-- How a character of an identifier stands in a file name: `replace(/[^a-zA-Z0-9_\-]/g, '_')` goes
by UTF-16 units, the Python join by characters. -/
def safeChar : Program → Char → Text
  | .typescript, c =>
    if c.isAlphanum || c == '_' || c == '-' then [c] else if c.toNat < 0x10000 then ['_'] else ['_', '_']
  | .python, c => if Platform.isalnum c || c == '-' || c == '_' then [c] else ['_']

def certName (networkId handle : Text) : Text := networkId ++ ['_', '_'] ++ handle

/-- `certs` is the path of the directory, with the separator. -/
def certPathFor (p : Program) (certs networkId handle : Text) : Text :=
  certs ++ ((certName networkId handle).flatMap (safeChar p) ++ ".cert".toList)

/-- `escapeTomlString` and `_escape`: the backslashes first, then the quotes. -/
def escapeTomlString (s : Text) : Text :=
  (s.flatMap fun c => if c = '\\' then ['\\', '\\'] else [c]).flatMap fun c => if c = '"' then ['\\', '"'] else [c]

def quoted (s : Text) : Text := ['"'] ++ escapeTomlString s ++ ['"']

def decimal (n : Nat) : Text := Nat.toDigits 10 n

def shownNumber (p : Program) : Number Platform.Time → Text
  | .integer n => decimal n
  | .float x => Platform.shown p x

def assignment (key : String) (written : Text) : Text := key.toList ++ [' ', '=', ' '] ++ written

/-- `if (s) lines.push(…)`: a text that is there and not empty. -/
def optionLines (key : String) : Option Text → List Text
  | some s => if s ≠ [] then [assignment key (quoted s)] else []
  | none => []

def timeLines (p : Program) (key : String) : Option Platform.Time → List Text
  | some x => [assignment key (Platform.shown p x)]
  | none => []

def addressLines (addresses : List Text) : List Text :=
  if addresses ≠ [] then
    [assignment "coordinator_addresses" (['['] ++ List.intercalate [',', ' '] (addresses.map quoted) ++ [']'])]
  else []

def StoredNetwork.lines (p : Program) (n : StoredNetwork) : List Text :=
  [[], "[[networks]]".toList, assignment "name" (quoted n.name), assignment "network_id" (quoted n.networkId),
    assignment "coordinator_node_id" (quoted n.coordinatorNodeId),
    assignment "coordinator_pubkey_hex" (quoted n.coordinatorPubkeyHex),
    assignment "handle" (quoted n.handle),
    assignment "added_at" (Platform.shown p n.addedAt),
    assignment "cert_path" (quoted n.certPath)] ++
  timeLines p "last_login_at" n.lastLoginAt ++ optionLines "coordinator_relay_url" n.coordinatorRelayUrl ++
  addressLines n.coordinatorAddresses

def NetworkStore.lines (p : Program) (store : NetworkStore) : List Text :=
  [assignment "schema_version" (shownNumber p store.schemaVersion)] ++
  optionLines "active_network" store.activeNetwork ++ optionLines "active_agent" store.activeAgent ++
  store.networks.flatMap (StoredNetwork.lines p)

/-- `saveStore` and `save`: `lines.join('\n') + '\n'`. -/
def saveStore (p : Program) (store : NetworkStore) : Text := List.intercalate ['\n'] (store.lines p) ++ ['\n']

def lookup (m : Pairs Platform.Time) (key : String) : Option (Value Platform.Time) :=
  (m.find? (fun pair => pair.1 == key.toList)).map Prod.snd

def stringOf : Value Platform.Time → Option Text
  | .string s => some s
  | _ => none

def numberOf : Value Platform.Time → Option (Number Platform.Time)
  | .number n => some n
  | _ => none

def textsOf : Value Platform.Time → Option (List Text)
  | .array texts => some texts
  | _ => none

def stringAt (m : Pairs Platform.Time) (key : String) : Option Text := (lookup m key).bind stringOf

def secondsOf : Number Platform.Time → Platform.Time
  | .integer n => Platform.ofNat n
  | .float x => x

def timeAt (m : Pairs Platform.Time) (key : String) : Option Platform.Time :=
  ((lookup m key).bind numberOf).map secondsOf

def textsAt (m : Pairs Platform.Time) (key : String) : Option (List Text) := (lookup m key).bind textsOf

def filled (s : Text) : Bool := s ≠ []

def networksOf (parsed : Document Platform.Time) : List (Pairs Platform.Time) :=
  (parsed.tables.filter (fun table => table.1 == "networks".toList)).map Prod.snd

def newer : Number Platform.Time → Bool
  | .integer n => n > SCHEMA_VERSION
  | .float x => Platform.exceeds x SCHEMA_VERSION

namespace TypeScript

/-- One element of `networks`: `none` when the loop passes over it. -/
def loadNetwork (certs : Text) (now : Platform.Time) (m : Pairs Platform.Time) : Option StoredNetwork := do
  let name ← stringAt m "name"
  let networkId ← stringAt m "network_id"
  let coordinatorNodeId ← stringAt m "coordinator_node_id"
  let coordinatorPubkeyHex ← stringAt m "coordinator_pubkey_hex"
  let handle ← stringAt m "handle"
  some {
    name, networkId, coordinatorNodeId, coordinatorPubkeyHex, handle
    addedAt := (timeAt m "added_at").getD now
    certPath := ((stringAt m "cert_path").filter filled).getD (certPathFor .typescript certs networkId handle)
    lastLoginAt := timeAt m "last_login_at"
    coordinatorRelayUrl := (stringAt m "coordinator_relay_url").filter filled
    coordinatorAddresses := ((textsAt m "coordinator_addresses").getD []).filter filled }

def schemaOf (parsed : Document Platform.Time) : Number Platform.Time :=
  ((lookup parsed.root "schema_version").bind numberOf).getD (.integer 0)

def loadStore (certs : Text) (now : Platform.Time) (raw : Text) : NetworkStore :=
  match Platform.smolToml.parse raw with
  | none => emptyStore
  | some parsed =>
    if newer (schemaOf parsed) then emptyStore
    else {
      networks := (networksOf parsed).filterMap (loadNetwork certs now)
      activeNetwork := stringAt parsed.root "active_network"
      activeAgent := stringAt parsed.root "active_agent"
      schemaVersion :=
        if secondsOf (schemaOf parsed) = Platform.ofNat 0 then .integer SCHEMA_VERSION else schemaOf parsed }

end TypeScript

namespace Python

def loadNetwork (now : Platform.Time) (n : Pairs Platform.Time) : Option StoredNetwork := do
  let name ← stringAt n "name"
  let networkId ← stringAt n "network_id"
  let coordinatorNodeId ← stringAt n "coordinator_node_id"
  let coordinatorPubkeyHex ← stringAt n "coordinator_pubkey_hex"
  let handle ← stringAt n "handle"
  some {
    name, networkId, coordinatorNodeId, coordinatorPubkeyHex, handle
    addedAt := (timeAt n "added_at").getD now
    certPath := (stringAt n "cert_path").getD []
    lastLoginAt := timeAt n "last_login_at"
    coordinatorRelayUrl := (stringAt n "coordinator_relay_url").filter filled
    coordinatorAddresses := (textsAt n "coordinator_addresses").getD [] }

def load (now : Platform.Time) (raw : Text) : Option NetworkStore := do
  let parsed ← Platform.tomllib.parse raw
  let version := ((lookup parsed.root "schema_version").bind numberOf)
  if newer (version.getD (.integer 0)) then some emptyStore
  else do
    let networks ← (networksOf parsed).mapM (loadNetwork now)
    some {
      networks
      activeNetwork := stringAt parsed.root "active_network"
      activeAgent := stringAt parsed.root "active_agent"
      schemaVersion := version.getD (.integer SCHEMA_VERSION) }

end Python

/-- What a program makes of the file's text; `none` when it raises. -/
def load (q : Program) (certs : Text) (now : Platform.Time) (raw : Text) : Option NetworkStore :=
  match q with
  | .typescript => some (TypeScript.loadStore certs now raw)
  | .python => Python.load now raw

/-- The arguments of `addOrUpdate`, out of a ticket. -/
structure Account where
  name : Text
  networkId : Text
  coordinatorNodeId : Text
  coordinatorPubkeyHex : Text
  handle : Text
  coordinatorRelayUrl : Option Text
  coordinatorAddresses : List Text
  relay_filled : coordinatorRelayUrl ≠ some []
  addresses_filled : [] ∉ coordinatorAddresses

/-- `given ?? kept`, and `given or kept`. -/
def hint : Program → Option Text → Option Text → Option Text
  | .typescript, given, kept => given <|> kept
  | .python, given, kept => given.filter filled <|> kept

def updated (p : Program) (certs : Text) (args : Account) (existing : StoredNetwork) : StoredNetwork where
  name := args.name
  networkId := args.networkId
  coordinatorNodeId := args.coordinatorNodeId
  coordinatorPubkeyHex := args.coordinatorPubkeyHex
  handle := args.handle
  addedAt := existing.addedAt
  certPath := certPathFor p certs args.networkId args.handle
  lastLoginAt := existing.lastLoginAt
  coordinatorRelayUrl := hint p args.coordinatorRelayUrl existing.coordinatorRelayUrl
  coordinatorAddresses :=
    if args.coordinatorAddresses = [] then existing.coordinatorAddresses else args.coordinatorAddresses

def row (p : Program) (certs : Text) (now : Platform.Time) (args : Account) : StoredNetwork where
  name := args.name
  networkId := args.networkId
  coordinatorNodeId := args.coordinatorNodeId
  coordinatorPubkeyHex := args.coordinatorPubkeyHex
  handle := args.handle
  addedAt := now
  certPath := certPathFor p certs args.networkId args.handle
  lastLoginAt := none
  coordinatorRelayUrl := args.coordinatorRelayUrl
  coordinatorAddresses := args.coordinatorAddresses

/-- The loop of `addOrUpdate` over the rows: `none` when it runs to its end. -/
def updateFirst (p : Program) (certs : Text) (args : Account) : List StoredNetwork → Option (List StoredNetwork)
  | [] => none
  | existing :: rest =>
    if existing.name = args.name ∧ existing.handle = args.handle then
      some (updated p certs args existing :: rest)
    else (updateFirst p certs args rest).map (existing :: ·)

def addOrUpdate (p : Program) (certs : Text) (now : Platform.Time) (store : NetworkStore) (args : Account) :
    NetworkStore :=
  match updateFirst p certs args store.networks with
  | some networks => { store with networks }
  | none => { store with
      networks := store.networks ++ [row p certs now args]
      activeNetwork := store.activeNetwork <|> some args.name }

/-- The loop of `remove`. -/
def removeFirst (name : Text) (handle : Option Text) : List StoredNetwork → Option (List StoredNetwork)
  | [] => none
  | n :: rest =>
    if n.name = name ∧ (handle = none ∨ some n.handle = handle) then some rest
    else (removeFirst name handle rest).map (n :: ·)

def remove (store : NetworkStore) (name : Text) (handle : Option Text) : NetworkStore :=
  match removeFirst name handle store.networks with
  | some networks => { store with
      networks
      activeNetwork :=
        if store.activeNetwork = some name then networks.head?.map (·.name) else store.activeNetwork }
  | none => store

inductive Call
  | addOrUpdate (args : Account) (now : Platform.Time)
  | remove (name : Text) (handle : Option Text)

/-- One call of a program whose certificates are in `certs`. -/
def step (p : Program) (certs : Text) (store : NetworkStore) : Call → NetworkStore
  | .addOrUpdate args now => addOrUpdate p certs now store args
  | .remove name handle => remove store name handle

def after (p : Program) (certs : Text) (calls : List Call) : NetworkStore :=
  calls.foldl (step p certs) emptyStore

end NetworksFile
