import OpenAgent.Identity.NetworksText
import OpenAgent.Lib.Runs

namespace NetworksFile

open List

open Toml (Legible)

structure Account.Legible (args : Account) : Prop where
  name : Toml.Legible args.name
  networkId : Toml.Legible args.networkId
  coordinatorNodeId : Toml.Legible args.coordinatorNodeId
  coordinatorPubkeyHex : Toml.Legible args.coordinatorPubkeyHex
  handle : Toml.Legible args.handle
  relay : ∀ url, args.coordinatorRelayUrl = some url → Toml.Legible url
  addresses : ∀ a ∈ args.coordinatorAddresses, Toml.Legible a

theorem shown_inj {l m : List (Option Char)} (hl : ∀ d, some d ∈ l → d ≠ '_') (hm : ∀ d, some d ∈ m → d ≠ '_')
    (h : l.map (·.getD '_') = m.map (·.getD '_')) : l = m := by
  induction l generalizing m with
  | nil =>
    cases m with
    | nil => rfl
    | cons y m => cases h
  | cons x l ih =>
    cases m with
    | nil => cases h
    | cons y m =>
      rw [map_cons, map_cons, List.cons.injEq] at h
      have hrest := ih (fun d hd => hl d (mem_cons_of_mem _ hd)) (fun d hd => hm d (mem_cons_of_mem _ hd)) h.2
      have hx := fun d (hd : x = some d) => hl d (hd ▸ mem_cons_self)
      have hy := fun d (hd : y = some d) => hm d (hd ▸ mem_cons_self)
      cases x with
      | none =>
        cases y with
        | none => rw [hrest]
        | some e => exact absurd h.1.symm (hy e rfl)
      | some d =>
        cases y with
        | none => exact absurd h.1 (hx d rfl)
        | some e =>
          have hde : d = e := h.1
          rw [hde, hrest]

theorem hint_eq (p : Program) {given : Option Text} (kept : Option Text) (h : given ≠ some []) :
    hint p given kept = (given <|> kept) := by
  cases p with
  | typescript => rfl
  | python => rw [hint, filter_filled h]

variable [Platform]

def seen : Program → Char → Option Char
  | .typescript, c => if c.isAlphanum || c == '-' then some c else none
  | .python, c => if Platform.isalnum c || c == '-' then some c else none

def outline (p : Program) (text : Text) : List (Option Char) :=
  text.flatMap fun c => match p, seen p c with
    | _, some d => [some d]
    | .typescript, none => if c.toNat < 0x10000 then [none] else [none, none]
    | .python, none => [none]

def Apart (networks : List StoredNetwork) : Prop :=
  ∀ n ∈ networks, ∀ m ∈ networks, n.name ≠ m.name ∨ n.handle ≠ m.handle → n.certPath ≠ m.certPath

/-- Either program reads back the rows that `p` saved, and no certificate is shared. -/
def Survives (p : Program) (certs : Text) (store : NetworkStore) : Prop :=
  (∀ q now, (load q certs now (saveStore p store)).map (·.networks) = some store.networks) ∧ Apart store.networks

def Clear (p : Program) (certs : Text) (store : NetworkStore) : Call → Prop
  | .addOrUpdate args _ => Legible certs ∧ args.Legible ∧
      ∀ n ∈ store.networks, n.name ≠ args.name ∨ n.handle ≠ args.handle →
        outline p (certName n.networkId n.handle) ≠ outline p (certName args.networkId args.handle)
  | .remove _ _ => True

variable {p : Program}

theorem seen_ne_underscore {c d : Char} (h : seen p c = some d) : d ≠ '_' := by
  rintro rfl
  cases p with
  | typescript =>
    obtain ⟨hc, hd⟩ := Option.ite_none_right_eq_some.mp h
    cases hd
    cases hc
  | python =>
    obtain ⟨hc, hd⟩ := Option.ite_none_right_eq_some.mp h
    cases hd
    rw [Platform.isalnum_underscore] at hc
    cases hc

theorem safe_eq (p : Program) (text : Text) : text.flatMap (safeChar p) = (outline p text).map (·.getD '_') := by
  rw [outline, map_flatMap]
  congr 1
  funext c
  cases p with
  | typescript =>
    by_cases hc : (c.isAlphanum || c == '-') = true
    · have hsafe : (c.isAlphanum || c == '_' || c == '-') = true := by
        simp only [Bool.or_eq_true] at hc ⊢
        tauto
      simp only [safeChar, seen, if_pos hc, if_pos hsafe, map_cons, map_nil, Option.getD_some]
    by_cases hu : c = '_'
    · subst hu
      rfl
    have hsafe : ¬ (c.isAlphanum || c == '_' || c == '-') = true := by
      simp only [Bool.or_eq_true, beq_iff_eq] at hc ⊢
      tauto
    simp only [safeChar, seen, if_neg hc, if_neg hsafe]
    split <;> rfl
  | python =>
    by_cases hc : (Platform.isalnum c || c == '-') = true
    · have hsafe : (Platform.isalnum c || c == '-' || c == '_') = true := by simp [hc]
      simp only [safeChar, seen, if_pos hc, if_pos hsafe, map_cons, map_nil, Option.getD_some]
    simp only [safeChar, seen, if_neg hc, map_cons, map_nil, Option.getD_none]
    split
    · next hsafe =>
        simp only [Bool.or_eq_true, beq_iff_eq] at hc hsafe
        have hu : c = '_' := by tauto
        rw [hu]
    · rfl

theorem mem_outline {text : Text} {d : Char} (h : some d ∈ outline p text) : d ≠ '_' := by
  obtain ⟨c, _, hd⟩ := mem_flatMap.mp h
  cases hseen : seen p c with
  | some e =>
    simp only [hseen, mem_singleton, Option.some.injEq] at hd
    exact hd ▸ seen_ne_underscore hseen
  | none =>
    cases p with
    | typescript =>
      simp only [hseen] at hd
      split at hd <;> simp at hd
    | python => simp [hseen] at hd

theorem certPathFor_inj (p : Program) (certs a b c d : Text) :
    certPathFor p certs a b = certPathFor p certs c d ↔ outline p (certName a b) = outline p (certName c d) := by
  rw [certPathFor, certPathFor, append_cancel_left_eq, append_cancel_right_eq, safe_eq, safe_eq]
  constructor
  · exact shown_inj (fun _ => mem_outline) (fun _ => mem_outline)
  · exact fun h => by rw [h]

theorem legible_safe (p : Program) (text : Text) : Legible (text.flatMap (safeChar p)) := by
  intro d hd
  obtain ⟨c, _, hd⟩ := mem_flatMap.mp hd
  have hbar : Toml.control '_' = false := rfl
  cases p with
  | typescript =>
    simp only [safeChar] at hd
    split at hd
    · next hc =>
        rw [mem_singleton.mp hd]
        exact Toml.control_of_bareKey hc
    split at hd
    · rw [mem_singleton.mp hd]
      exact hbar
    simp only [mem_cons, not_mem_nil, or_false, or_self] at hd
    rw [hd]
    exact hbar
  | python =>
    simp only [safeChar] at hd
    split at hd
    · next hc =>
        rw [mem_singleton.mp hd]
        simp only [Bool.or_eq_true, beq_iff_eq] at hc
        rcases hc with (hc | rfl) | rfl
        · exact Platform.isalnum_legible c hc
        · rfl
        · rfl
    · rw [mem_singleton.mp hd]
      exact hbar

theorem legible_certPathFor (p : Program) (certs networkId handle : Text) :
    Legible (certPathFor p certs networkId handle) ↔ Legible certs := by
  rw [certPathFor, Toml.legible_append, Toml.legible_append]
  exact ⟨fun h => h.1, fun h => ⟨h, legible_safe p _, by decide⟩⟩

structure Kept (p : Program) (certs : Text) (store : NetworkStore) : Prop where
  certPath : ∀ n ∈ store.networks, n.certPath = certPathFor p certs n.networkId n.handle
  filled : ∀ n ∈ store.networks, n.Filled
  active : ∀ s, store.activeNetwork = some s → ∃ n ∈ store.networks, n.name = s
  agent : store.activeAgent = none
  version : store.schemaVersion = .integer SCHEMA_VERSION

theorem certPathFor_filled (p : Program) (certs networkId handle : Text) :
    certPathFor p certs networkId handle ≠ [] := by
  intro h
  have hend := congrArg List.length h
  simp [certPathFor] at hend

theorem row_filled (p : Program) (certs : Text) (now : Platform.Time) (args : Account) :
    (row p certs now args).Filled :=
  ⟨certPathFor_filled p certs _ _, args.relay_filled, args.addresses_filled⟩

theorem updated_filled (p : Program) (certs : Text) (args : Account) {existing : StoredNetwork}
    (h : existing.Filled) : (updated p certs args existing).Filled := by
  refine ⟨certPathFor_filled p certs _ _, ?_, ?_⟩
  · have hargs := args.relay_filled
    simp only [updated, hint_eq p _ hargs]
    cases hrel : args.coordinatorRelayUrl with
    | none => exact h.relay
    | some s =>
      rw [hrel] at hargs
      exact hargs
  simp only [updated]
  split
  · exact h.addresses
  · exact args.addresses_filled

theorem legible_row (p : Program) (certs : Text) (now : Platform.Time) (args : Account) :
    (row p certs now args).Legible ↔ Legible certs ∧ args.Legible := by
  have hcert := legible_certPathFor p certs args.networkId args.handle
  constructor
  · exact fun h => ⟨hcert.mp h.certPath, ⟨h.name, h.networkId, h.coordinatorNodeId, h.coordinatorPubkeyHex, h.handle,
      h.relay, h.addresses⟩⟩
  · exact fun ⟨hcer, h⟩ => ⟨h.name, h.networkId, h.coordinatorNodeId, h.coordinatorPubkeyHex, h.handle,
      hcert.mpr hcer, h.relay, h.addresses⟩

theorem legible_updated (p : Program) (certs : Text) (args : Account) {existing : StoredNetwork}
    (hkept : existing.Legible) : (updated p certs args existing).Legible ↔ Legible certs ∧ args.Legible := by
  have hcert := legible_certPathFor p certs args.networkId args.handle
  have hrel : (updated p certs args existing).coordinatorRelayUrl =
      (args.coordinatorRelayUrl <|> existing.coordinatorRelayUrl) := hint_eq p _ args.relay_filled
  constructor
  · intro h
    refine ⟨hcert.mp h.certPath, ⟨h.name, h.networkId, h.coordinatorNodeId, h.coordinatorPubkeyHex, h.handle, ?_, ?_⟩⟩
    · intro url hurl
      exact h.relay url (by rw [hrel, hurl]; rfl)
    intro a ha
    have hsome : args.coordinatorAddresses ≠ [] := ne_nil_of_mem ha
    exact h.addresses a (by rw [updated, if_neg hsome]; exact ha)
  intro ⟨hcer, h⟩
  refine ⟨h.name, h.networkId, h.coordinatorNodeId, h.coordinatorPubkeyHex, h.handle, hcert.mpr hcer, ?_, ?_⟩
  · intro url hurl
    rw [hrel] at hurl
    cases hgiv : args.coordinatorRelayUrl with
    | none => exact hkept.relay url (by rwa [hgiv] at hurl)
    | some s => exact h.relay url (by rwa [hgiv] at hurl ⊢)
  intro a ha
  simp only [updated] at ha
  split at ha
  · exact hkept.addresses a ha
  · exact h.addresses a ha

theorem updateFirst_cases (p : Program) (certs : Text) (args : Account) (networks : List StoredNetwork) :
    (updateFirst p certs args networks = none ∧ ∀ n ∈ networks, n.name ≠ args.name ∨ n.handle ≠ args.handle) ∨
    ∃ pre existing post, networks = pre ++ existing :: post ∧
      (existing.name = args.name ∧ existing.handle = args.handle) ∧
      updateFirst p certs args networks = some (pre ++ updated p certs args existing :: post) := by
  induction networks with
  | nil => exact .inl ⟨rfl, fun _ h => by cases h⟩
  | cons n rest ih =>
    rw [updateFirst]
    by_cases hkey : n.name = args.name ∧ n.handle = args.handle
    · exact .inr ⟨[], n, rest, rfl, hkey, if_pos hkey⟩
    rw [if_neg hkey]
    rcases ih with ⟨hnone, hall⟩ | ⟨pre, existing, post, rfl, hexi, hsome⟩
    · refine .inl ⟨by rw [hnone]; rfl, forall_mem_cons.mpr ⟨?_, hall⟩⟩
      exact not_and_or.mp hkey
    · exact .inr ⟨n :: pre, existing, post, rfl, hexi, by rw [hsome]; rfl⟩

theorem removeFirst_cases (name : Text) (handle : Option Text) (networks : List StoredNetwork) :
    removeFirst name handle networks = none ∨
    ∃ pre n post, networks = pre ++ n :: post ∧ n.name = name ∧
      removeFirst name handle networks = some (pre ++ post) := by
  induction networks with
  | nil => exact .inl rfl
  | cons n rest ih =>
    rw [removeFirst]
    by_cases hkey : n.name = name ∧ (handle = none ∨ some n.handle = handle)
    · exact .inr ⟨[], n, rest, rfl, hkey.1, if_pos hkey⟩
    rw [if_neg hkey]
    rcases ih with hnone | ⟨pre, m, post, rfl, hm, hsome⟩
    · exact .inl (by rw [hnone]; rfl)
    · exact .inr ⟨n :: pre, m, post, rfl, hm, by rw [hsome]; rfl⟩

theorem kept_emptyStore (p : Program) (certs : Text) : Kept p certs emptyStore :=
  ⟨forall_mem_nil _, forall_mem_nil _, by simp [emptyStore], rfl, rfl⟩

theorem Kept.addOrUpdate {p : Program} {certs : Text} {store : NetworkStore} (h : Kept p certs store)
    (now : Platform.Time) (args : Account) : Kept p certs (addOrUpdate p certs now store args) := by
  obtain ⟨hcert, hfil, hact, hage, hver⟩ := h
  rcases updateFirst_cases p certs args store.networks with ⟨hnone, _⟩ | ⟨pre, existing, post, hl, hkey, hsome⟩
  · simp only [NetworksFile.addOrUpdate, hnone]
    refine ⟨?_, ?_, ?_, hage, hver⟩
    · exact forall_mem_append.mpr ⟨hcert, forall_mem_singleton.mpr rfl⟩
    · exact forall_mem_append.mpr ⟨hfil, forall_mem_singleton.mpr (row_filled p certs now args)⟩
    intro s hs
    cases hold : store.activeNetwork with
    | none =>
      rw [hold] at hs
      cases hs
      exact ⟨_, mem_append_right _ mem_cons_self, rfl⟩
    | some a =>
      rw [hold] at hs
      cases hs
      obtain ⟨n, hn, hname⟩ := hact _ hold
      exact ⟨n, mem_append_left _ hn, hname⟩
  simp only [NetworksFile.addOrUpdate, hsome]
  rw [hl, forall_mem_append, forall_mem_cons] at hcert hfil
  refine ⟨?_, ?_, ?_, hage, hver⟩
  · exact forall_mem_append.mpr ⟨hcert.1, forall_mem_cons.mpr ⟨rfl, hcert.2.2⟩⟩
  · exact forall_mem_append.mpr ⟨hfil.1, forall_mem_cons.mpr ⟨updated_filled p certs args hfil.2.1, hfil.2.2⟩⟩
  intro s hs
  obtain ⟨n, hn, hname⟩ := hact s hs
  rw [hl, mem_append, mem_cons] at hn
  rcases hn with hn | rfl | hn
  · exact ⟨n, mem_append_left _ hn, hname⟩
  · exact ⟨_, mem_append_right _ mem_cons_self, hkey.1.symm.trans hname⟩
  · exact ⟨n, mem_append_right _ (mem_cons_of_mem _ hn), hname⟩

variable {certs : Text} {store : NetworkStore}

theorem Kept.remove (h : Kept p certs store)
    (name : Text) (handle : Option Text) : Kept p certs (remove store name handle) := by
  obtain ⟨hcert, hfil, hact, hage, hver⟩ := h
  rcases removeFirst_cases name handle store.networks with hnone | ⟨pre, gone, post, hl, hgone, hsome⟩
  · simp only [NetworksFile.remove, hnone]
    exact ⟨hcert, hfil, hact, hage, hver⟩
  simp only [NetworksFile.remove, hsome]
  have hsub : ∀ n, n ∈ pre ++ post → n ∈ store.networks := by
    intro n hn
    rw [hl, mem_append, mem_cons]
    exact (mem_append.mp hn).imp_right .inr
  refine ⟨fun n hn => hcert n (hsub n hn), fun n hn => hfil n (hsub n hn), ?_, hage, hver⟩
  intro s hs
  split at hs
  · obtain ⟨n, hn, hname⟩ := Option.map_eq_some_iff.mp hs
    exact ⟨n, mem_of_mem_head? hn, hname⟩
  next hoth =>
    obtain ⟨n, hn, hname⟩ := hact s hs
    have hne : n ≠ gone := by
      rintro rfl
      exact hoth (by rw [hs, ← hname, hgone])
    rw [hl, mem_append, mem_cons] at hn
    refine ⟨n, mem_append.mpr ?_, hname⟩
    tauto

theorem Kept.step {p : Program} {certs : Text} {store : NetworkStore} (h : Kept p certs store) (call : Call) :
    Kept p certs (step p certs store call) := by
  cases call with
  | addOrUpdate args now => exact h.addOrUpdate now args
  | remove name handle => exact h.remove name handle

structure Good (networks : List StoredNetwork) : Prop where
  legible : ∀ n ∈ networks, n.Legible
  apart : Apart networks

theorem survives_iff (h : Kept p certs store) : Survives p certs store ↔ Good store.networks := by
  constructor
  · intro ⟨hload, hapa⟩
    refine ⟨?_, hapa⟩
    by_contra htorn
    have now := Platform.ofNat 0
    exact load_torn p .python certs now h.version h.filled htorn (hload .python now)
  intro ⟨hrows, hapa⟩
  have hleg : store.Legible := by
    refine ⟨hrows, ?_, by simp [h.agent]⟩
    intro s hs
    obtain ⟨n, hn, hname⟩ := h.active s hs
    exact hname ▸ (hrows n hn).name
  exact ⟨fun q now => load_legible p q certs now h.version h.filled hleg, hapa⟩

theorem apart_insert {l m : List StoredNetwork} {r : StoredNetwork} (hmem : ∀ n, n ∈ m ↔ n = r ∨ n ∈ l)
    (h : Apart l) : Apart m ↔ ∀ n ∈ l, n.name ≠ r.name ∨ n.handle ≠ r.handle → n.certPath ≠ r.certPath := by
  constructor
  · exact fun hm n hn hdif => hm n ((hmem n).mpr (.inr hn)) r ((hmem r).mpr (.inl rfl)) hdif
  intro hr n hn k hk hdif
  rcases (hmem n).mp hn with rfl | hn
  · rcases (hmem k).mp hk with rfl | hk
    · exact (hdif.elim (fun hd => hd rfl) (fun hd => hd rfl)).elim
    · exact (hr k hk (hdif.imp Ne.symm Ne.symm)).symm
  rcases (hmem k).mp hk with rfl | hk
  · exact hr n hn hdif
  · exact h n hn k hk hdif

theorem Apart.subset {l m : List StoredNetwork} (h : Apart m) (hsub : ∀ n ∈ l, n ∈ m) : Apart l :=
  fun n hn k hk => h n (hsub n hn) k (hsub k hk)

/-- The paths of the rows against the path of the arguments, in what shows of the names. -/
theorem certPath_ne_iff {n : StoredNetwork}
    (hn : n.certPath = certPathFor p certs n.networkId n.handle) (args : Account) :
    n.certPath ≠ certPathFor p certs args.networkId args.handle ↔
      outline p (certName n.networkId n.handle) ≠ outline p (certName args.networkId args.handle) := by
  rw [hn, ne_eq, certPathFor_inj]

theorem good_addOrUpdate (h : Kept p certs store) (hgood : Good store.networks) (now : Platform.Time) (args : Account) :
    Good (addOrUpdate p certs now store args).networks ↔ Clear p certs store (.addOrUpdate args now) := by
  rcases updateFirst_cases p certs args store.networks with ⟨hnone, _⟩ | ⟨pre, existing, post, hl, hkey, hsome⟩
  · have hmem : ∀ n, n ∈ store.networks ++ [row p certs now args] ↔ n = row p certs now args ∨ n ∈ store.networks := by
      intro n
      rw [mem_append, mem_singleton, or_comm]
    have hapa := apart_insert hmem hgood.apart
    have hrow := legible_row p certs now args
    simp only [addOrUpdate, hnone]
    constructor
    · intro hnew
      obtain ⟨hcer, hargs⟩ := hrow.mp (hnew.legible _ ((hmem _).mpr (.inl rfl)))
      refine ⟨hcer, hargs, fun n hn hdif => ?_⟩
      exact (certPath_ne_iff (h.certPath n hn) args).mp (hapa.mp hnew.apart n hn hdif)
    intro ⟨hcer, hargs, hdis⟩
    refine ⟨?_, hapa.mpr fun n hn hdif => ?_⟩
    · exact forall_mem_append.mpr ⟨hgood.legible, forall_mem_singleton.mpr (hrow.mpr ⟨hcer, hargs⟩)⟩
    · exact (certPath_ne_iff (h.certPath n hn) args).mpr (hdis n hn hdif)
  · have hmem : ∀ n, n ∈ pre ++ updated p certs args existing :: post ↔
        n = updated p certs args existing ∨ n ∈ pre ++ post := by
      simp only [mem_append, mem_cons]
      tauto
    have hrest : ∀ n ∈ pre ++ post, n ∈ store.networks := by
      intro n hn
      rw [hl, mem_append, mem_cons]
      exact (mem_append.mp hn).imp_right .inr
    have hexi : existing ∈ store.networks := hl ▸ mem_append_right _ mem_cons_self
    have hapa := apart_insert hmem (hgood.apart.subset hrest)
    have hrow := legible_updated p certs args (hgood.legible existing hexi)
    simp only [addOrUpdate, hsome]
    constructor
    · intro hnew
      obtain ⟨hcer, hargs⟩ := hrow.mp (hnew.legible _ ((hmem _).mpr (.inl rfl)))
      refine ⟨hcer, hargs, fun n hn hdif => ?_⟩
      have hn' : n ∈ pre ++ post := by
        rw [hl, mem_append, mem_cons] at hn
        rcases hn with hn | rfl | hn
        · exact mem_append_left _ hn
        · exact (hdif.elim (fun hd => hd hkey.1) (fun hd => hd hkey.2)).elim
        · exact mem_append_right _ hn
      exact (certPath_ne_iff (h.certPath n hn) args).mp (hapa.mp hnew.apart n hn' hdif)
    intro ⟨hcer, hargs, hdis⟩
    refine ⟨fun n hn => ?_, hapa.mpr fun n hn hdif => ?_⟩
    · rcases (hmem n).mp hn with rfl | hn
      · exact hrow.mpr ⟨hcer, hargs⟩
      · exact hgood.legible n (hrest n hn)
    · exact (certPath_ne_iff (h.certPath n (hrest n hn)) args).mpr (hdis n (hrest n hn) hdif)

theorem good_remove (hgood : Good store.networks) (name : Text) (handle : Option Text) :
    Good (remove store name handle).networks := by
  rcases removeFirst_cases name handle store.networks with hnone | ⟨pre, gone, post, hl, _, hsome⟩
  · simp only [remove, hnone]
    exact hgood
  have hsub : ∀ n ∈ pre ++ post, n ∈ store.networks := by
    intro n hn
    rw [hl, mem_append, mem_cons]
    exact (mem_append.mp hn).imp_right .inr
  simp only [remove, hsome]
  exact ⟨fun n hn => hgood.legible n (hsub n hn), hgood.apart.subset hsub⟩

theorem good_step (h : Kept p certs store) (hgood : Good store.networks) (call : Call) :
    Good (step p certs store call).networks ↔ Clear p certs store call := by
  cases call with
  | addOrUpdate args now => exact good_addOrUpdate h hgood now args
  | remove name handle => exact iff_of_true (good_remove hgood name handle) trivial

/-- The networks file survives, after every call, exactly when no call has a control character in
its texts and none gives a row the certificate name that a row of another network or handle has. -/
theorem networks_file_survives (p : Program) (certs : Text) (calls : List Call) :
    (∀ pre post, calls = pre ++ post → Survives p certs (after p certs pre)) ↔
      ∀ pre call post, calls = pre ++ call :: post → Clear p certs (after p certs pre) call := by
  let next : NetworkStore → Call → Option NetworkStore := fun store call => some (step p certs store call)
  have hrun : ∀ calls store, Runs.run next store calls = some (calls.foldl (step p certs) store) := by
    intro calls
    induction calls with
    | nil => exact fun _ => rfl
    | cons call calls ih => exact fun store => ih _
  have hkept : ∀ s call t, Kept p certs s → next s call = some t → Kept p certs t := by
    intro s call t hs ht
    cases ht
    exact hs.step call
  have hstep : ∀ s call t, Kept p certs s → Kept p certs s ∧ Good s.networks → next s call = some t →
      (Survives p certs t ↔ Clear p certs s call) ∧ (Survives p certs t → Kept p certs t ∧ Good t.networks) := by
    intro s call t hs hgood ht
    cases ht
    have hsur := survives_iff (hs.step call)
    exact ⟨hsur.trans (good_step hs hgood.2 call), fun h => ⟨hs.step call, hsur.mp h⟩⟩
  have hgood : Good emptyStore.networks := ⟨forall_mem_nil _, forall_mem_nil _⟩
  have hiff := Runs.always_iff_meets_of (fun s h => (survives_iff h.1).mpr h.2) hkept hstep
    (kept_emptyStore p certs) ⟨kept_emptyStore p certs, hgood⟩ (hrun calls emptyStore)
  constructor
  · intro hall pre call post hcal
    refine hiff.mp ?_ pre call post _ hcal (hrun pre emptyStore)
    intro pre post t hcal ht
    rw [hrun] at ht
    cases ht
    exact hall pre post hcal
  intro hcle pre post hcal
  refine hiff.mpr ?_ pre post _ hcal (hrun pre emptyStore)
  intro pre call post t hcal ht
  rw [hrun] at ht
  cases ht
  exact hcle pre call post hcal

abbrev ticking : Platform where
  Time := Bool
  decTime := inferInstance
  ofNat n := n == 1700000001
  exceeds ticked n := (if ticked then 1700000001 else 1700000000) > n
  float text :=
    if text = "1700000000.0".toList then some false else if text = "1700000001.0".toList then some true else none
  shown
    | .typescript, false => "1700000000".toList
    | .typescript, true => "1700000001".toList
    | .python, false => "1700000000.0".toList
    | .python, true => "1700000001.0".toList
  isalnum := Char.isAlphanum
  smolToml := Toml.loads _
  tomllib := Toml.loads _
  shown_plain p ticked := by cases p <;> cases ticked <;> decide
  shown_read p ticked := by
    cases p with
    | typescript =>
      cases ticked with
      | false => exact .inr ⟨1700000000, rfl, rfl⟩
      | true => exact .inr ⟨1700000001, rfl, rfl⟩
    | python => cases ticked <;> exact .inl rfl
  isalnum_underscore := rfl
  isalnum_legible c h := Toml.control_of_bareKey (by rw [Toml.bareKey, h]; rfl)

def twoLines : Account where
  name := "home\nlab".toList
  networkId := "n1".toList
  coordinatorNodeId := "c1".toList
  coordinatorPubkeyHex := "aa".toList
  handle := "alice".toList
  coordinatorRelayUrl := none
  coordinatorAddresses := []
  relay_filled := by decide
  addresses_filled := by decide

omit [Platform] in
theorem two_line_name_loses_networks :
    ¬ ∀ (_ : Platform) (p : Program) (certs : Text) (calls : List Call), Survives p certs (after p certs calls) := by
  intro hall
  have hload := (hall ticking .typescript "/certs/".toList [@Call.addOrUpdate ticking twoLines false]).1 .typescript false
  exact absurd (congrArg (Option.map List.length) hload) (by decide +kernel)

end NetworksFile
