import Mathlib.Data.List.Forall2
import OpenAgent.Identity.NetworksFile

namespace NetworksFile

open List StoredNetwork Platform

open Toml (Number Value Pairs Document Statement Legible States Torn BareKey)

theorem escapeTomlString_eq (s : Text) : escapeTomlString s = Toml.escape s := by
  rw [escapeTomlString, flatMap_assoc, Toml.escape]
  congr 1
  funext c
  by_cases hs : c = '\\'
  · subst hs
    rfl
  by_cases hq : c = '"'
  · subst hq
    rfl
  · simp [Toml.escapeChar, hs, hq]

theorem quoted_eq (s : Text) : quoted s = Toml.quoted s := by
  simp [quoted, Toml.quoted, escapeTomlString_eq]

theorem quotedAll_eq {texts : List Text} (h : texts ≠ []) :
    List.intercalate [',', ' '] (texts.map quoted) ++ [']'] = Toml.quotedAll texts := by
  induction texts with
  | nil => exact absurd rfl h
  | cons text rest ih =>
    cases rest with
    | nil => simp [List.intercalate, quoted_eq, Toml.quotedAll]
    | cons next more =>
      rw [Toml.quotedAll, ← ih (List.cons_ne_nil _ _)]
      · simp [List.intercalate, quoted_eq]
      · exact List.cons_ne_nil _ _

theorem assignment_eq (key : String) (written : Text) : assignment key written = Toml.pairLine key.toList written := by
  simp [assignment, Toml.pairLine]

variable {given : Option Text}

theorem filter_filled (h : given ≠ some []) : given.filter filled = given := by
  cases given with
  | none => rfl
  | some s =>
    have hne : s ≠ [] := fun he => h (by rw [he])
    exact if_pos (by simp [filled, hne])

variable [Platform]

structure StoredNetwork.Legible (n : StoredNetwork) : Prop where
  name : Toml.Legible n.name
  networkId : Toml.Legible n.networkId
  coordinatorNodeId : Toml.Legible n.coordinatorNodeId
  coordinatorPubkeyHex : Toml.Legible n.coordinatorPubkeyHex
  handle : Toml.Legible n.handle
  certPath : Toml.Legible n.certPath
  relay : ∀ url, n.coordinatorRelayUrl = some url → Toml.Legible url
  addresses : ∀ a ∈ n.coordinatorAddresses, Toml.Legible a

structure StoredNetwork.Filled (n : StoredNetwork) : Prop where
  certPath : n.certPath ≠ []
  relay : n.coordinatorRelayUrl ≠ some []
  addresses : [] ∉ n.coordinatorAddresses

theorem saveStore_eq (p : Program) (store : NetworkStore) : saveStore p store = Toml.unlines (store.lines p) := by
  have hjoin : ∀ (l : Text) (lines : List Text),
      List.intercalate ['\n'] (l :: lines) ++ ['\n'] = Toml.unlines (l :: lines) := by
    intro l lines
    induction lines generalizing l with
    | nil => simp [List.intercalate, Toml.unlines]
    | cons next more ih =>
      rw [Toml.unlines_cons, ← ih next]
      simp [List.intercalate]
  exact hjoin _ _

def reading (p : Program) (x : Platform.Time) : Number Platform.Time :=
  (Toml.number Platform.float (Platform.shown p x)).getD (.float x)

theorem number_shown (p : Program) (x : Platform.Time) :
    Toml.number Platform.float (Platform.shown p x) = some (reading p x) ∧ secondsOf (reading p x) = x := by
  rcases shown_read p x with h | ⟨n, h, hn⟩
  · exact ⟨by rw [reading, h]; rfl, by rw [reading, h]; rfl⟩
  · exact ⟨by rw [reading, h]; rfl, by rw [reading, h]; exact hn⟩

abbrev states := States Platform.float

abbrev torn := Torn Platform.float

section Assignments

variable {key : String} (hkey : BareKey key.toList)
include hkey

theorem states_quoted {s : Text} (h : Toml.Legible s) :
    states (assignment key (quoted s)) (.pair key.toList (.string s)) := by
  rw [assignment_eq, quoted_eq]
  exact Toml.states_pair _ hkey (Toml.value_quoted _ h) (Toml.legible_quoted h)

theorem torn_quoted {s : Text} (h : ¬ Toml.Legible s) : torn (assignment key (quoted s)) := by
  rw [assignment_eq, quoted_eq]
  exact Toml.torn_pair _ hkey (Toml.value_torn _ h)

theorem states_addresses {texts : List Text} (hne : texts ≠ []) (h : ∀ a ∈ texts, Toml.Legible a) :
    states (assignment key (['['] ++ List.intercalate [',', ' '] (texts.map quoted) ++ [']']))
      (.pair key.toList (.array texts)) := by
  rw [assignment_eq, append_assoc, quotedAll_eq hne]
  refine Toml.states_pair _ hkey (Toml.value_quotedAll _ hne h) ?_
  exact (Toml.legible_cons _ _).mpr ⟨rfl, Toml.legible_quotedAll h⟩

theorem torn_addresses {texts : List Text} (hne : texts ≠ []) (h : ¬ ∀ a ∈ texts, Toml.Legible a) :
    torn (assignment key (['['] ++ List.intercalate [',', ' '] (texts.map quoted) ++ [']'])) := by
  rw [assignment_eq, append_assoc, quotedAll_eq hne]
  exact Toml.torn_pair _ hkey (Toml.value_torn_array _ h)

theorem states_shown (p : Program) (x : Platform.Time) :
    states (assignment key (Platform.shown p x)) (.pair key.toList (.number (reading p x))) := by
  have hpla := shown_plain p x
  rw [assignment_eq]
  exact Toml.states_pair _ hkey (Toml.value_number _ (number_shown p x).1 hpla.2) hpla.1

end Assignments

def timePairs (p : Program) (key : String) : Option Platform.Time → Pairs Platform.Time
  | some x => [(key.toList, .number (reading p x))]
  | none => []

def textPairs (key : String) : Option Text → Pairs Platform.Time
  | some s => if s ≠ [] then [(key.toList, .string s)] else []
  | none => []

def addressPairs (texts : List Text) : Pairs Platform.Time :=
  if texts ≠ [] then [("coordinator_addresses".toList, .array texts)] else []

def StoredNetwork.pairs (p : Program) (n : StoredNetwork) : Pairs Platform.Time :=
  [("name".toList, .string n.name), ("network_id".toList, .string n.networkId),
    ("coordinator_node_id".toList, .string n.coordinatorNodeId),
    ("coordinator_pubkey_hex".toList, .string n.coordinatorPubkeyHex),
    ("handle".toList, .string n.handle),
    ("added_at".toList, .number (reading p n.addedAt)),
    ("cert_path".toList, .string n.certPath)] ++
  timePairs p "last_login_at" n.lastLoginAt ++ textPairs "coordinator_relay_url" n.coordinatorRelayUrl ++
  addressPairs n.coordinatorAddresses

def statement : Text × Value Platform.Time → Statement Platform.Time := fun pair => .pair pair.1 pair.2

def StoredNetwork.statements (p : Program) (n : StoredNetwork) : List (Statement Platform.Time) :=
  .blank :: .header "networks".toList :: (n.pairs p).map statement

variable {key : String}

theorem states_time (p : Program) (hkey : BareKey key.toList) (given : Option Platform.Time) :
    List.Forall₂ states (timeLines p key given) ((timePairs p key given).map statement) := by
  cases given with
  | none => exact .nil
  | some x => exact .cons (states_shown hkey p x) .nil

theorem states_option (hkey : BareKey key.toList) (h : ∀ s, given = some s → Toml.Legible s) :
    List.Forall₂ states (optionLines key given) ((textPairs key given).map statement) := by
  cases given with
  | none => exact .nil
  | some s =>
    by_cases hs : s = []
    · simp [optionLines, textPairs, hs]
    · simp only [optionLines, textPairs, ne_eq, hs, not_false_eq_true, if_true]
      exact .cons (states_quoted hkey (h s rfl)) .nil

theorem states_address {addresses : List Text} (h : ∀ a ∈ addresses, Toml.Legible a) :
    List.Forall₂ states (addressLines addresses) ((addressPairs addresses).map statement) := by
  by_cases hnone : addresses = []
  · simp [addressLines, addressPairs, hnone]
  · rw [addressLines, addressPairs, if_pos hnone, if_pos hnone]
    exact .cons (states_addresses (by decide) hnone h) .nil

variable {n : StoredNetwork}

theorem states_lines (p : Program) (h : n.Legible) : List.Forall₂ states (n.lines p) (n.statements p) := by
  have hnet : BareKey "networks".toList := by decide
  have hrel : BareKey "coordinator_relay_url".toList := by decide
  have hlog : BareKey "last_login_at".toList := by decide
  have hopt := rel_append (rel_append (states_time p hlog n.lastLoginAt)
    (states_option hrel h.relay)) (states_address h.addresses)
  simp only [append_assoc] at hopt
  simp only [lines, statements, pairs, map_append, map_cons,
    cons_append, nil_append, append_assoc]
  exact .cons (Toml.states_blank _) <| .cons (Toml.states_header _ hnet) <|
    .cons (states_quoted (by decide) h.name) <| .cons (states_quoted (by decide) h.networkId) <|
    .cons (states_quoted (by decide) h.coordinatorNodeId) <|
    .cons (states_quoted (by decide) h.coordinatorPubkeyHex) <|
    .cons (states_quoted (by decide) h.handle) <| .cons (states_shown (by decide) p n.addedAt) <|
    .cons (states_quoted (by decide) h.certPath) hopt

def Settled (line : Text) : Prop := (∃ s, states line s) ∨ torn line

theorem settled_quoted (hkey : BareKey key.toList) (s : Text) : Settled (assignment key (quoted s)) := by
  by_cases hs : Toml.Legible s
  · exact .inl ⟨_, states_quoted hkey hs⟩
  · exact .inr (torn_quoted hkey hs)

theorem settled_option (hkey : BareKey key.toList) (given : Option Text) :
    ∀ line ∈ optionLines key given, Settled line := by
  intro line hline
  cases given with
  | none => cases hline
  | some s =>
    simp only [optionLines] at hline
    split at hline
    · rw [mem_singleton.mp hline]
      exact settled_quoted hkey s
    · cases hline

theorem settled_lines (p : Program) (n : StoredNetwork) : ∀ line ∈ n.lines p, Settled line := by
  have hnet : BareKey "networks".toList := by decide
  have hlog : ∀ line ∈ timeLines p "last_login_at" n.lastLoginAt, Settled line := by
    cases n.lastLoginAt with
    | none => exact fun _ h => by cases h
    | some x => exact fun line h => .inl ⟨_, mem_singleton.mp h ▸ states_shown (by decide) p x⟩
  have hadd : ∀ line ∈ addressLines n.coordinatorAddresses, Settled line := by
    intro line hline
    unfold addressLines at hline
    split at hline
    · next hsome =>
        rw [mem_singleton.mp hline]
        by_cases ha : ∀ a ∈ n.coordinatorAddresses, Toml.Legible a
        · exact .inl ⟨_, states_addresses (by decide) hsome ha⟩
        · exact .inr (torn_addresses (by decide) hsome ha)
    · cases hline
  simp only [lines, forall_mem_append, forall_mem_cons, not_mem_nil, false_implies,
    implies_true, and_true]
  exact ⟨⟨⟨⟨.inl ⟨_, Toml.states_blank _⟩, .inl ⟨_, Toml.states_header _ hnet⟩,
    settled_quoted (by decide) _, settled_quoted (by decide) _, settled_quoted (by decide) _,
    settled_quoted (by decide) _, settled_quoted (by decide) _, .inl ⟨_, states_shown (by decide) p _⟩,
    settled_quoted (by decide) _⟩, hlog⟩, settled_option (by decide) _⟩, hadd⟩

theorem legible_of_whole (hkey : BareKey key.toList) {s : Text}
    (h : ¬ torn (assignment key (quoted s))) : Toml.Legible s := by
  by_contra hs
  exact h (torn_quoted hkey hs)

theorem legible_of_whole_option (hkey : BareKey key.toList)
    (hfil : given ≠ some []) (h : ∀ line ∈ optionLines key given, ¬ torn line) (s : Text)
    (hs : given = some s) : Toml.Legible s := by
  subst hs
  have hne : s ≠ [] := fun he => hfil (by rw [he])
  refine legible_of_whole hkey (h _ ?_)
  rw [optionLines, if_pos hne]
  exact mem_cons_self

theorem legible_of_whole_addresses {addresses : List Text} (h : ∀ line ∈ addressLines addresses, ¬ torn line) :
    ∀ a ∈ addresses, Toml.Legible a := by
  by_cases hnone : addresses = []
  · simp [hnone]
  by_contra ha
  rw [addressLines, if_pos hnone] at h
  exact h _ mem_cons_self (torn_addresses (by decide) hnone ha)

theorem legible_of_whole_lines (p : Program) (hfil : n.Filled) (h : ∀ line ∈ n.lines p, ¬ torn line) : n.Legible := by
  simp only [lines, forall_mem_append, forall_mem_cons, not_mem_nil, false_implies,
    implies_true, and_true] at h
  obtain ⟨⟨⟨⟨_, _, hname, hid, hnode, hkey, hhan, _, hcert⟩, _⟩, hrel⟩, hadd⟩ := h
  exact {
    name := legible_of_whole (by decide) hname
    networkId := legible_of_whole (by decide) hid
    coordinatorNodeId := legible_of_whole (by decide) hnode
    coordinatorPubkeyHex := legible_of_whole (by decide) hkey
    handle := legible_of_whole (by decide) hhan
    certPath := legible_of_whole (by decide) hcert
    relay := legible_of_whole_option (by decide) hfil.relay hrel
    addresses := legible_of_whole_addresses hadd }

def NetworkStore.pairs (store : NetworkStore) : Pairs Platform.Time :=
  [("schema_version".toList, .number store.schemaVersion)] ++ textPairs "active_network" store.activeNetwork ++
    textPairs "active_agent" store.activeAgent

def NetworkStore.document (p : Program) (store : NetworkStore) : Document Platform.Time where
  root := store.pairs
  tables := store.networks.map fun n => ("networks".toList, n.pairs p)

theorem gather_pairs (pairs : Pairs Platform.Time) (rest : List (Statement Platform.Time)) :
    Toml.gather (pairs.map statement ++ rest) = ⟨pairs ++ (Toml.gather rest).root, (Toml.gather rest).tables⟩ := by
  induction pairs with
  | nil => rfl
  | cons pair pairs ih => simp only [map_cons, cons_append, statement, Toml.gather, ih]

theorem gather_networks (p : Program) (networks : List StoredNetwork) :
    Toml.gather (networks.flatMap (StoredNetwork.statements p)) =
      ⟨[], networks.map fun n => ("networks".toList, n.pairs p)⟩ := by
  induction networks with
  | nil => rfl
  | cons n rest ih =>
    rw [flatMap_cons, statements, cons_append, cons_append, Toml.gather,
      Toml.gather, gather_pairs, ih]
    simp

theorem keys_time (p : Program) (key : String) (given : Option Platform.Time) :
    ((timePairs p key given).map Prod.fst).Sublist [key.toList] := by
  cases given with
  | none => exact nil_sublist _
  | some x => exact List.Sublist.refl _

theorem keys_option (key : String) (given : Option Text) :
    ((textPairs key given).map Prod.fst).Sublist [key.toList] := by
  cases given with
  | none => exact nil_sublist _
  | some s =>
    rw [textPairs]
    split
    · exact List.Sublist.refl _
    · exact nil_sublist _

theorem keys_addresses (texts : List Text) :
    ((addressPairs texts).map Prod.fst).Sublist ["coordinator_addresses".toList] := by
  rw [addressPairs]
  split
  · exact List.Sublist.refl _
  · exact nil_sublist _

theorem keys_row (p : Program) (n : StoredNetwork) : ((n.pairs p).map Prod.fst).Nodup := by
  have hsub : ((n.pairs p).map Prod.fst).Sublist
      (((["name".toList, "network_id".toList, "coordinator_node_id".toList, "coordinator_pubkey_hex".toList,
        "handle".toList, "added_at".toList, "cert_path".toList] ++ ["last_login_at".toList]) ++
        ["coordinator_relay_url".toList]) ++ ["coordinator_addresses".toList]) := by
    simp only [pairs, map_append]
    exact (((List.Sublist.refl _).append (keys_time p _ _)).append (keys_option _ _)).append (keys_addresses _)
  exact hsub.nodup (by decide)

theorem keys_root (store : NetworkStore) :
    (store.pairs.map Prod.fst).Sublist (["schema_version".toList] ++ ["active_network".toList] ++
      ["active_agent".toList]) := by
  simp only [NetworkStore.pairs, map_append]
  exact ((List.Sublist.refl _).append (keys_option _ _)).append (keys_option _ _)

theorem document_sound (p : Program) (store : NetworkStore) : (store.document p).Sound := by
  refine ⟨(keys_root store).nodup (by decide), ?_⟩
  intro table htab
  obtain ⟨n, _, rfl⟩ := mem_map.mp htab
  refine ⟨fun hroot => ?_, keys_row p n⟩
  have hkey : "networks".toList ∉ ["schema_version".toList] ++ ["active_network".toList] ++ ["active_agent".toList] := by
    decide
  exact hkey ((keys_root store).subset hroot)

structure NetworkStore.Legible (store : NetworkStore) : Prop where
  rows : ∀ n ∈ store.networks, n.Legible
  activeNetwork : ∀ s, store.activeNetwork = some s → Toml.Legible s
  activeAgent : ∀ s, store.activeAgent = some s → Toml.Legible s

theorem states_schema (p : Program) : states (assignment "schema_version" (shownNumber p (.integer SCHEMA_VERSION)))
      (.pair "schema_version".toList (.number (.integer SCHEMA_VERSION))) := by
  have hkey : BareKey "schema_version".toList := by decide
  have hfir : (decimal SCHEMA_VERSION).head? ≠ some '"' ∧ (decimal SCHEMA_VERSION).head? ≠ some '[' := by decide
  have hleg : Toml.Legible (decimal SCHEMA_VERSION) := by decide
  exact Toml.states_pair _ hkey (Toml.value_number _ rfl hfir) hleg

theorem states_rows (p : Program) {networks : List StoredNetwork} (h : ∀ n ∈ networks, n.Legible) :
    List.Forall₂ states (networks.flatMap (StoredNetwork.lines p)) (networks.flatMap (StoredNetwork.statements p)) := by
  induction networks with
  | nil => exact .nil
  | cons n rest ih =>
    rw [forall_mem_cons] at h
    exact rel_append (states_lines p h.1) (ih h.2)

variable {store : NetworkStore}

theorem parse_saveStore (p : Program) (hver : store.schemaVersion = .integer SCHEMA_VERSION)
    (h : store.Legible) : Toml.parse Platform.float (saveStore p store) = .ok (store.document p) := by
  have hnet : BareKey "active_network".toList := by decide
  have hage : BareKey "active_agent".toList := by decide
  have hroot := rel_append (rel_append (states_option hnet h.activeNetwork)
    (states_option hage h.activeAgent)) (states_rows p h.rows)
  have hall := List.Forall₂.cons (states_schema p) hroot
  have hgat : Toml.gather (.pair "schema_version".toList (.number (.integer SCHEMA_VERSION)) ::
      (((textPairs "active_network" store.activeNetwork).map statement ++
        (textPairs "active_agent" store.activeAgent).map statement) ++
        store.networks.flatMap (statements p))) = store.document p := by
    rw [Toml.gather, append_assoc, gather_pairs, gather_pairs, gather_networks]
    simp [NetworkStore.document, NetworkStore.pairs, hver]
  have hlin : store.lines p = assignment "schema_version" (shownNumber p (.integer SCHEMA_VERSION)) ::
        ((optionLines "active_network" store.activeNetwork ++ optionLines "active_agent" store.activeAgent) ++
          store.networks.flatMap (lines p)) := by
    simp [NetworkStore.lines, hver]
  have hpar := Toml.parse_unlines _ hall (hgat ▸ document_sound p store)
  rw [saveStore_eq, hlin, ← hgat]
  exact hpar

theorem parse_saveStore_torn (p : Program)
    (hver : store.schemaVersion = .integer SCHEMA_VERSION) (hfil : ∀ n ∈ store.networks, n.Filled)
    (h : ¬ ∀ n ∈ store.networks, n.Legible) :
    Toml.parse Platform.float (saveStore p store) = .error .invalid := by
  rw [saveStore_eq]
  refine Toml.parse_torn _ ?_ ?_
  · simp only [NetworkStore.lines, hver, forall_mem_append, forall_mem_cons, not_mem_nil,
      false_implies, implies_true, and_true, mem_flatMap, forall_exists_index, and_imp]
    exact ⟨⟨⟨.inl ⟨_, states_schema p⟩, settled_option (by decide) _⟩, settled_option (by decide) _⟩,
      fun line n _ hline => settled_lines p n line hline⟩
  by_contra hnone
  refine h fun n hn => legible_of_whole_lines p (hfil n hn) fun line hline htorn => hnone ⟨line, ?_, htorn⟩
  exact mem_append_right _ (mem_flatMap.mpr ⟨n, hn, hline⟩)

theorem lookup_append (l m : Pairs Platform.Time) (key : String) :
    lookup (l ++ m) key = (lookup l key <|> lookup m key) := by
  rw [lookup, lookup, lookup, List.find?_append]
  cases l.find? (fun pair => pair.1 == key.toList) <;> rfl

theorem timeAt_pairs (p : Program) (n : StoredNetwork) :
    timeAt (n.pairs p) "added_at" = some n.addedAt ∧ timeAt (n.pairs p) "last_login_at" = n.lastLoginAt := by
  constructor
  · exact congrArg some (number_shown p n.addedAt).2
  have hrel : lookup (textPairs "coordinator_relay_url" n.coordinatorRelayUrl) "last_login_at" = none := by
    cases n.coordinatorRelayUrl with
    | none => rfl
    | some s =>
      rw [textPairs]
      split <;> rfl
  have hadd : lookup (addressPairs n.coordinatorAddresses) "last_login_at" = none := by
    rw [addressPairs]
    split <;> rfl
  rw [timeAt, pairs, lookup_append, lookup_append, lookup_append, hrel, hadd]
  cases n.lastLoginAt with
  | none => rfl
  | some x => exact congrArg some (number_shown p x).2

theorem stringAt_relay (p : Program) (h : n.Filled) :
    stringAt (n.pairs p) "coordinator_relay_url" = n.coordinatorRelayUrl := by
  have hlog : lookup (timePairs p "last_login_at" n.lastLoginAt) "coordinator_relay_url" = none := by
    cases n.lastLoginAt <;> rfl
  have hadd : lookup (addressPairs n.coordinatorAddresses) "coordinator_relay_url" = none := by
    rw [addressPairs]
    split <;> rfl
  rw [stringAt, pairs, lookup_append, lookup_append, lookup_append, hlog, hadd]
  have hfil := h.relay
  cases hurl : n.coordinatorRelayUrl with
  | none => rfl
  | some s =>
    have hne : s ≠ [] := fun he => hfil (by rw [hurl, he])
    rw [textPairs, if_pos hne]
    rfl

theorem textsAt_addresses (p : Program) (n : StoredNetwork) :
    (textsAt (n.pairs p) "coordinator_addresses").getD [] = n.coordinatorAddresses := by
  have hlog : lookup (timePairs p "last_login_at" n.lastLoginAt) "coordinator_addresses" = none := by
    cases n.lastLoginAt <;> rfl
  have hrel : lookup (textPairs "coordinator_relay_url" n.coordinatorRelayUrl) "coordinator_addresses" = none := by
    cases n.coordinatorRelayUrl with
    | none => rfl
    | some s =>
      rw [textPairs]
      split <;> rfl
  rw [textsAt, pairs, lookup_append, lookup_append, lookup_append, hlog, hrel, addressPairs]
  split
  · rfl
  · next hnone => exact (not_not.mp hnone).symm

theorem loadNetwork_typescript (p : Program) (certs : Text) (now : Platform.Time)
    (h : n.Filled) : TypeScript.loadNetwork certs now (n.pairs p) = some n := by
  have hcert : ((stringAt (n.pairs p) "cert_path").filter filled) = some n.certPath :=
    filter_filled (fun he => h.certPath (Option.some.inj he))
  have hall : n.coordinatorAddresses.filter filled = n.coordinatorAddresses := by
    rw [filter_eq_self]
    intro a ha
    have hne : a ≠ [] := fun he => h.addresses (he ▸ ha)
    simp [filled, hne]
  have hload : TypeScript.loadNetwork certs now (n.pairs p) = some
      { n with
        addedAt := (timeAt (n.pairs p) "added_at").getD now
        certPath := ((stringAt (n.pairs p) "cert_path").filter filled).getD
          (certPathFor .typescript certs n.networkId n.handle)
        lastLoginAt := timeAt (n.pairs p) "last_login_at"
        coordinatorRelayUrl := (stringAt (n.pairs p) "coordinator_relay_url").filter filled
        coordinatorAddresses := ((textsAt (n.pairs p) "coordinator_addresses").getD []).filter filled } := rfl
  rw [hload, (timeAt_pairs p n).1, (timeAt_pairs p n).2, hcert, stringAt_relay p h, filter_filled h.relay,
    textsAt_addresses, hall]
  rfl

theorem loadNetwork_python (p : Program) (now : Platform.Time) (h : n.Filled) :
    Python.loadNetwork now (n.pairs p) = some n := by
  have hload : Python.loadNetwork now (n.pairs p) = some
      { n with
        addedAt := (timeAt (n.pairs p) "added_at").getD now
        lastLoginAt := timeAt (n.pairs p) "last_login_at"
        coordinatorRelayUrl := (stringAt (n.pairs p) "coordinator_relay_url").filter filled
        coordinatorAddresses := (textsAt (n.pairs p) "coordinator_addresses").getD [] } := rfl
  rw [hload, (timeAt_pairs p n).1, (timeAt_pairs p n).2, stringAt_relay p h, filter_filled h.relay, textsAt_addresses]
  rfl

theorem mapM_python (p : Program) (now : Platform.Time) {networks : List StoredNetwork} (h : ∀ n ∈ networks, n.Filled) :
    (networks.map (StoredNetwork.pairs p)).mapM (Python.loadNetwork now) = some networks := by
  induction networks with
  | nil => rfl
  | cons n rest ih =>
    rw [forall_mem_cons] at h
    rw [map_cons, mapM_cons, loadNetwork_python p now h.1, ih h.2]
    rfl

theorem networksOf_document (p : Program) (store : NetworkStore) :
    networksOf (store.document p) = store.networks.map (StoredNetwork.pairs p) := by
  simp [networksOf, NetworkStore.document, filter_map, Function.comp_def]

/-- A legible file is read back, by either program, into the rows that were saved. -/
theorem load_legible (p q : Program) (certs : Text) (now : Platform.Time)
    (hver : store.schemaVersion = .integer SCHEMA_VERSION) (hfil : ∀ n ∈ store.networks, n.Filled)
    (h : store.Legible) :
    (load q certs now (saveStore p store)).map (·.networks) = some store.networks := by
  have hpar := parse_saveStore p hver h
  have hsch : (lookup (store.document p).root "schema_version").bind numberOf =
      some (.integer SCHEMA_VERSION) := by rw [← hver]; rfl
  have hnewe : newer (.integer SCHEMA_VERSION) = false := rfl
  cases q with
  | typescript =>
    have hrows : (store.networks.map (pairs p)).filterMap (TypeScript.loadNetwork certs now) =
        store.networks := by
      rw [filterMap_map, filterMap_congr (g := some), filterMap_some]
      exact fun n hn => loadNetwork_typescript p certs now (hfil n hn)
    simp only [load, TypeScript.loadStore, smolToml.accepts _ _ hpar, TypeScript.schemaOf, hsch,
      Option.getD_some, hnewe, Bool.false_eq_true, if_false, networksOf_document, hrows, Option.map_some]
  | python =>
    have hrows : (store.networks.map (pairs p)).mapM (Python.loadNetwork now) =
        some store.networks := mapM_python p now hfil
    simp only [load, Python.load, tomllib.accepts _ _ hpar, hsch, Option.bind_eq_bind,
      Option.bind_some, Option.getD_some, hnewe, Bool.false_eq_true, if_false, networksOf_document, hrows,
      Option.map_some]

/-- A torn file gives no program its rows: the desktop app starts over, the Python load raises. -/
theorem load_torn (p q : Program) (certs : Text) (now : Platform.Time)
    (hver : store.schemaVersion = .integer SCHEMA_VERSION) (hfil : ∀ n ∈ store.networks, n.Filled)
    (h : ¬ ∀ n ∈ store.networks, n.Legible) :
    (load q certs now (saveStore p store)).map (·.networks) ≠ some store.networks := by
  have hpar := parse_saveStore_torn p hver hfil h
  have hsome : store.networks ≠ [] := fun he => h (by simp [he])
  cases q with
  | typescript =>
    simp only [load, TypeScript.loadStore, smolToml.refuses _ hpar, emptyStore, Option.map_some]
    exact fun he => hsome (Option.some.inj he).symm
  | python => simp [load, Python.load, tomllib.refuses _ hpar]

end NetworksFile
