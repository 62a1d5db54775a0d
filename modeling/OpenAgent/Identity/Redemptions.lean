import OpenAgent.Identity.Effects

namespace OpenAgent.Identity

open Py List Acts Service

variable {Session α β : Type}

abbrev Desk (Session : Type) := Coro.Moment (Coordinator Session) Event

/-- The redemptions of an invitation under way: which found it valid, which decremented it and have not returned it, and
whose decrement is in the open transaction. -/
structure Tally where
  reading : List Coro.TaskId := []
  spending : List Coro.TaskId := []
  unsaved : List Coro.TaskId := []

open Tally

namespace Tally

variable {code : String} {t : Tally} {i j : Coro.TaskId}

def act (code : String) (t : Tally) (i : Coro.TaskId) : Action → Tally
  | .readInvitation c true => if c = code then { t with reading := i :: t.reading } else t
  | .wrote (.spendInvitation c _) =>
    if c = code then ⟨t.reading.erase i, i :: t.spending, i :: t.unsaved⟩ else t
  | .redeemed c _ => if c = code then { t with spending := t.spending.erase i } else t
  | .committed | .rolledBack => { t with unsaved := [] }
  | _ => t

def leave (t : Tally) (i : Coro.TaskId) : Tally := ⟨t.reading.erase i, t.spending.erase i, t.unsaved.erase i⟩

def next (code : String) (t : Tally) (x : Coro.Entry (Coordinator Session) Event) : Tally :=
  if x.event.raised.isSome then (t.act code x.task x.event.action).leave x.task
  else t.act code x.task x.event.action

end Tally

def tally (code : String) (trace : List (Coro.Entry (Coordinator Session) Event)) : Tally :=
  trace.foldl (Tally.next code) {}

def Action.redeems (code : String) : Action → Bool
  | .redeemed c _ => c = code
  | _ => false

/-- How many calls of `consume_invitation` returned the invitation. -/
def returns (code : String) (trace : List (Coro.Entry (Coordinator Session) Event)) : Nat :=
  trace.countP (fun x => x.event.action.redeems code)

def usesLeft (code : String) (db : Db) : Option Int := (db.invitations.get? code).map (·.usesLeft)

/-- A redemption finds the invitation valid only while more uses are left than other redemptions stand between
their reading and their decrement, and no rollback comes between a decrement and its commit. -/
def Spaced (code : String) (m : Desk Session) (_ : Coro.TaskId) (e : Event) : Prop :=
  match e.action with
  | .readInvitation c true => c = code → e.raised = none →
      ∀ uses ∈ usesLeft code m.shared.working, (tally code m.trace).reading.length < uses
  | .rolledBack => (tally code m.trace).unsaved = []
  | _ => True

instance (code : String) (m : Desk Session) (i : Coro.TaskId) (e : Event) : Decidable (Spaced code m i e) :=
  match e with
  | ⟨.readInvitation c true, raised⟩ => inferInstanceAs (Decidable (c = code → raised = none →
      ∀ uses ∈ usesLeft code m.shared.working, (tally code m.trace).reading.length < uses))
  | ⟨.rolledBack, _⟩ => inferInstanceAs (Decidable ((tally code m.trace).unsaved = []))
  | ⟨.readInvitation _ false, _⟩ | ⟨.nothing, _⟩ | ⟨.readDevice _ _, _⟩ | ⟨.readUserDevices _ _, _⟩ | ⟨.wrote _, _⟩
  | ⟨.committed, _⟩ | ⟨.began _ _, _⟩ | ⟨.redeemed _ _, _⟩ | ⟨.issued _, _⟩ | ⟨.answered _, _⟩ => .isTrue trivial

namespace Tally

variable {code : String} {t : Tally} {i j : Coro.TaskId}

structure Spares (j : Coro.TaskId) (t u : Tally) : Prop where
  reading : j ∈ u.reading ↔ j ∈ t.reading
  spending : j ∈ u.spending ↔ j ∈ t.spending
  unsaved : j ∈ u.unsaved → j ∈ t.unsaved

theorem Spares.refl (j : Coro.TaskId) (t : Tally) : Spares j t t := ⟨.rfl, .rfl, id⟩

theorem Spares.trans {u v : Tally} (h : Spares j t u) (k : Spares j u v) : Spares j t v :=
  ⟨k.reading.trans h.reading, k.spending.trans h.spending, h.unsaved ∘ k.unsaved⟩

theorem spares_act (hij : j ≠ i) (a : Action) : Spares j t (t.act code i a) := by
  rw [act.eq_def]
  split
  · split
    · exact ⟨by simp [hij], .rfl, id⟩
    · exact Spares.refl j t
  · split
    · exact ⟨mem_erase_of_ne hij, by simp [hij], fun h => (mem_cons.mp h).resolve_left hij⟩
    · exact Spares.refl j t
  · split
    · exact ⟨.rfl, mem_erase_of_ne hij, id⟩
    · exact Spares.refl j t
  · exact ⟨.rfl, .rfl, fun h => absurd h not_mem_nil⟩
  · exact ⟨.rfl, .rfl, fun h => absurd h not_mem_nil⟩
  · exact Spares.refl j t

theorem spares_leave (hij : j ≠ i) : Spares j t (t.leave i) :=
  ⟨mem_erase_of_ne hij, mem_erase_of_ne hij, mem_of_mem_erase⟩

theorem spares_next {x : Coro.Entry (Coordinator Session) Event} (hj : j ≠ x.task) : Spares j t (t.next code x) := by
  rw [next]
  split
  · exact (spares_act hj _).trans (spares_leave hj)
  · exact spares_act hj _

structure Idle (i : Coro.TaskId) (t : Tally) : Prop where
  reading : i ∉ t.reading
  spending : i ∉ t.spending
  unsaved : i ∉ t.unsaved

theorem Idle.leave (h : Idle i t) : t.leave i = t := by
  rw [Tally.leave, erase_of_not_mem h.reading, erase_of_not_mem h.spending, erase_of_not_mem h.unsaved]

theorem Idle.spared (h : Idle i t) {u : Tally} (hs : Spares i t u) : Idle i u :=
  ⟨fun hr => h.reading (hs.reading.mp hr), fun hr => h.spending (hs.spending.mp hr),
    fun hr => h.unsaved (hs.unsaved hr)⟩

end Tally

/-- The uses of an invitation created with `n`, of which `k` were returned: `w` are left in the working view and
`c` in the committed one. -/
structure Balance (n k : Nat) (t : Tally) (w c : Int) : Prop where
  room : t.reading.length ≤ w
  spent : w + t.spending.length + k ≤ n
  saved : c + t.spending.length + k ≤ n + t.unsaved.length
  behind : w ≤ c
  reading : t.reading.Nodup
  spending : t.spending.Nodup
  unsaved : t.unsaved.Nodup
  within : ∀ j ∈ t.unsaved, j ∈ t.spending

namespace Balance

variable {n k : Nat} {t : Tally} {w c : Int} {i : Coro.TaskId}

theorem start (n : Nat) : Balance n 0 {} n n :=
  ⟨by simp, by simp, by simp, le_refl _, nodup_nil, nodup_nil, nodup_nil, by simp⟩

theorem read (h : Balance n k t w c) (hi : i ∉ t.reading) (hroom : t.reading.length < w) :
    Balance n k { t with reading := i :: t.reading } w c where
  room := by
    rw [length_cons]
    omega
  spent := h.spent
  saved := h.saved
  behind := h.behind
  reading := nodup_cons.mpr ⟨hi, h.reading⟩
  spending := h.spending
  unsaved := h.unsaved
  within := h.within

theorem spend (h : Balance n k t w c) (hr : i ∈ t.reading) (hs : i ∉ t.spending) :
    Balance n k ⟨t.reading.erase i, i :: t.spending, i :: t.unsaved⟩ (w - 1) c := by
  have hpos : 0 < t.reading.length := length_pos_of_mem hr
  have hroom := h.room
  have hspe := h.spent
  have hsav := h.saved
  have hbeh := h.behind
  refine ⟨?_, ?_, ?_, ?_, h.reading.erase i, nodup_cons.mpr ⟨hs, h.spending⟩,
    nodup_cons.mpr ⟨fun hu => hs (h.within i hu), h.unsaved⟩, ?_⟩
  · rw [length_erase_of_mem hr]
    omega
  · rw [length_cons]
    omega
  · rw [length_cons, length_cons]
    omega
  · omega
  · intro j hj
    rcases mem_cons.mp hj with rfl | hj
    · exact mem_cons_self
    · exact mem_cons_of_mem _ (h.within j hj)

theorem save (h : Balance n k t w c) : Balance n k { t with unsaved := [] } w w :=
  ⟨h.room, h.spent, by simpa using h.spent, le_refl w, h.reading, h.spending, nodup_nil, by simp⟩

theorem undo (h : Balance n k t w c) (hu : t.unsaved = []) : Balance n k { t with unsaved := [] } c c := by
  have hsav := h.saved
  rw [hu] at hsav
  have hspe : c + t.spending.length + k ≤ n := by simpa using hsav
  exact ⟨h.room.trans h.behind, hspe, by simpa using hspe, le_refl c, h.reading, h.spending, nodup_nil, by simp⟩

theorem give (h : Balance n k t w c) (hs : i ∈ t.spending) (hu : i ∉ t.unsaved) :
    Balance n (k + 1) { t with spending := t.spending.erase i } w c := by
  have hpos : 0 < t.spending.length := length_pos_of_mem hs
  have hspe := h.spent
  have hsav := h.saved
  refine ⟨h.room, ?_, ?_, h.behind, h.reading, h.spending.erase i, h.unsaved, ?_⟩
  · rw [length_erase_of_mem hs]
    omega
  · dsimp only
    rw [length_erase_of_mem hs]
    omega
  intro j hj
  have hne : j ≠ i := by
    rintro rfl
    exact hu hj
  exact (mem_erase_of_ne hne).mpr (h.within j hj)

theorem length_erase_le (l : List Coro.TaskId) (i : Coro.TaskId) : (l.erase i).length ≤ l.length :=
  erase_sublist.length_le

theorem leave (h : Balance n k t w c) (i : Coro.TaskId) : Balance n k (t.leave i) w c := by
  have hrea := length_erase_le t.reading i
  have hspe := length_erase_le t.spending i
  have hroom := h.room
  have hspen := h.spent
  have hsav := h.saved
  refine ⟨?_, ?_, ?_, h.behind, h.reading.erase i, h.spending.erase i, h.unsaved.erase i, ?_⟩
  · dsimp only [Tally.leave]
    omega
  · dsimp only [Tally.leave]
    omega
  · by_cases hu : i ∈ t.unsaved
    · -- both lists get shorter
      have hpos' : 0 < t.spending.length := length_pos_of_mem (h.within i hu)
      dsimp only [Tally.leave]
      rw [length_erase_of_mem hu, length_erase_of_mem (h.within i hu)]
      omega
    · dsimp only [Tally.leave]
      rw [erase_of_not_mem hu]
      omega
  · intro j hj
    have hne : j ≠ i := by
      rintro rfl
      exact h.unsaved.not_mem_erase hj
    exact (mem_erase_of_ne hne).mpr (h.within j (mem_of_mem_erase hj))

end Balance

section Ledger

variable {P : Platform} {code : String} {n : Nat} {m : Desk Session} {i : Coro.TaskId} {r : Coordinator Session × Event}

theorem usesLeft_spend (now : Time) (db : Db) :
    usesLeft code ((Write.spendInvitation code now).run P db) = (usesLeft code db).map (· - 1) := by
  rw [Write.run.eq_def]
  rw [usesLeft, usesLeft, Dict.get?_mapEntries]
  cases db.invitations.get? code with
  | none => rfl
  | some row => simp

theorem usesLeft_run {w : Write} (hw : ∀ now, w ≠ .spendInvitation code now) (db : Db) :
    usesLeft code (w.run P db) = usesLeft code db := by
  cases w with
  | spendInvitation c now =>
    have hne : code ≠ c := fun he => hw now (by rw [he])
    rw [Write.run.eq_def]
    rw [usesLeft, usesLeft, Dict.get?_mapEntries]
    cases db.invitations.get? code with
    | none => rfl
    | some row => simp [hne]
  | _ => rfl

def Bounded (code : String) (n : Nat) (m : Desk Session) : Prop :=
  ∃ w c, usesLeft code m.shared.working = some w ∧ usesLeft code m.shared.committed = some c ∧
    Balance n (returns code m.trace) (tally code m.trace) w c

def budget (code : String) (n : Nat) : Coro.Contract (Coordinator Session) Event where
  inv := Bounded code n
  allowed := Spaced code
  rely i m m' := (tally code m.trace).Spares i (tally code m'.trace)
  refl i _ := Tally.Spares.refl i _
  trans _ _ _ _ := Tally.Spares.trans

theorem tally_after : tally code (m.after i r).trace = (tally code m.trace).next code ⟨i, m.shared, r.2⟩ := by
  rw [tally, Coro.Moment.after, foldl_append]
  rfl

theorem returns_after : returns code (m.after i r).trace =
    returns code m.trace + if r.2.action.redeems code then 1 else 0 := by
  rw [returns, Coro.Moment.after, countP_append, countP_singleton]
  rfl

theorem fair_of_bounded (h : Bounded code n (m.after i r)) : (budget code n).Fair i m (m.after i r) := by
  refine ⟨h, fun j hj => ?_⟩
  change Spares j _ _
  rw [tally_after]
  exact spares_next hj

def Tame (code : String) : Action → Prop
  | .readInvitation c true => c ≠ code
  | .wrote (.spendInvitation c _) => c ≠ code
  | .redeemed c _ => c ≠ code
  | _ => True

theorem tame_cases {c c' : Coordinator Session} {a : Action} {e : Option Exn} (hh : Honest P c (c', ⟨a, e⟩))
    (ht : Tame code a) : a.redeems code = false ∧
    (((∀ t : Tally, t.act code i a = t) ∧ usesLeft code c'.working = usesLeft code c.working ∧
      c'.committed = c.committed) ∨
    (a = .committed ∧ c'.working = c.working ∧ c'.committed = c.working) ∨
    (a = .rolledBack ∧ c'.working = c.committed ∧ c'.committed = c.committed)) := by
  cases a with
  | readInvitation k valid =>
    refine ⟨rfl, .inl ⟨?_, congrArg _ hh.1, hh.2⟩⟩
    intro t
    cases valid with
    | false => rfl
    | true => exact if_neg ht
  | wrote w =>
    refine ⟨rfl, .inl ⟨?_, ?_, hh.2⟩⟩
    · intro t
      cases w with
      | spendInvitation k now => exact if_neg ht
      | _ => rfl
    rw [hh.1]
    apply usesLeft_run
    rintro now rfl
    exact ht rfl
  | redeemed k invite => exact ⟨decide_eq_false ht, .inl ⟨fun t => if_neg ht, congrArg _ hh.1, hh.2⟩⟩
  | committed => exact ⟨rfl, .inr (.inl ⟨rfl, hh⟩)⟩
  | rolledBack => exact ⟨rfl, .inr (.inr ⟨rfl, hh⟩)⟩
  | readDevice _ _ | readUserDevices _ _ => exact ⟨rfl, .inl ⟨fun _ => rfl, congrArg _ hh.1.1, hh.1.2⟩⟩
  | _ => exact ⟨rfl, .inl ⟨fun _ => rfl, congrArg _ hh.1, hh.2⟩⟩

theorem tame_step (h : Bounded code n m) (hi : (tally code m.trace).Idle i)
    (hk : Honest P m.shared r ∧ Tame code r.2.action) (ha : Spaced code m i r.2) :
    (budget code n).Fair i m (m.after i r) ∧ (tally code (m.after i r).trace).Idle i := by
  obtain ⟨w, c, hw, hc, hb⟩ := h
  obtain ⟨hqui, hcas⟩ := tame_cases (i := i) hk.1 hk.2
  have hret : returns code (m.after i r).trace = returns code m.trace := by
    rw [returns_after, hqui]
    rfl
  have hnext : ∀ u, (tally code m.trace).act code i r.2.action = u → u.Idle i → tally code (m.after i r).trace = u := by
    intro u hu hidle
    rw [tally_after, Tally.next]
    rw [hu]
    split
    · exact hidle.leave
    · rfl
  have hcle : ({ tally code m.trace with unsaved := [] } : Tally).Idle i :=
    ⟨hi.reading, hi.spending, not_mem_nil⟩
  rcases hcas with ⟨hact, hwor, hcom⟩ | ⟨hact, hwor, hcom⟩ | ⟨hact, hwor, hcom⟩
  · have ht := hnext _ (hact _) hi
    refine ⟨fair_of_bounded ⟨w, c, hwor.trans hw, (congrArg _ hcom).trans hc, ?_⟩, ht ▸ hi⟩
    rw [ht, hret]
    exact hb
  · have ht := hnext { tally code m.trace with unsaved := [] } (by rw [hact]; rfl) hcle
    refine ⟨fair_of_bounded ⟨w, w, (congrArg _ hwor).trans hw, (congrArg _ hcom).trans hw, ?_⟩, ht ▸ hcle⟩
    rw [ht, hret]
    exact hb.save
  have ht := hnext { tally code m.trace with unsaved := [] } (by rw [hact]; rfl) hcle
  rw [Spaced, hact] at ha
  refine ⟨fair_of_bounded ⟨c, c, (congrArg _ hwor).trans hc, (congrArg _ hcom).trans hc, ?_⟩, ht ▸ hcle⟩
  rw [ht, hret]
  exact hb.undo ha

theorem idle_stable : ∀ m m' : Desk Session, (tally code m.trace).Idle i → (budget code n).rely i m m' →
    (budget code n).inv m' → (tally code m'.trace).Idle i :=
  fun _ _ h hs _ => h.spared hs

theorem maintains_tame {x : Act Session α} (hx : Acts P (Tame code) x) :
    Coro.Maintains (budget code n) i (fun m => (tally code m.trace).Idle i) x.run :=
  fun _ hi => Coro.Keeps.of_all idle_stable (fun _ _ hb hidle hk ha => tame_step hb hidle hk ha) hx hi

theorem idle_leave {w c : Int} {k : Nat} {t : Tally} (h : Balance n k t w c) (i : Coro.TaskId) : (t.leave i).Idle i :=
  ⟨h.reading.not_mem_erase, h.spending.not_mem_erase, h.unsaved.not_mem_erase⟩

theorem act_step {w c : Int} {t : Tally} (ht : (tally code m.trace).act code i r.2.action = t)
    (hw : usesLeft code r.1.working = some w) (hc : usesLeft code r.1.committed = some c)
    (hb : Balance n (returns code (m.after i r).trace) t w c) :
    (budget code n).Fair i m (m.after i r) ∧ if r.2.raised.isSome then (tally code (m.after i r).trace).Idle i
      else tally code (m.after i r).trace = t := by
  have hnext : tally code (m.after i r).trace = if r.2.raised.isSome then t.leave i else t := by
    rw [tally_after, Tally.next]
    rw [ht]
  split at hnext
  · refine ⟨fair_of_bounded ⟨w, c, hw, hc, hnext ▸ hb.leave i⟩, ?_⟩
    rw [if_pos ‹_›, hnext]
    exact idle_leave hb i
  refine ⟨fair_of_bounded ⟨w, c, hw, hc, hnext ▸ hb⟩, ?_⟩
  rw [if_neg ‹_›]
  exact hnext

theorem abandoned_read (h : Bounded code n m) (hi : (tally code m.trace).Idle i) (valid : Bool) (e : Exn) :
    (budget code n).Fair i m (m.after i (m.shared, ⟨.readInvitation code valid, some e⟩)) ∧
      (tally code (m.after i (m.shared, ⟨.readInvitation code valid, some e⟩)).trace).Idle i := by
  have ht : tally code (m.after i (m.shared, ⟨.readInvitation code valid, some e⟩)).trace = tally code m.trace := by
    rw [tally_after, Tally.next]
    cases valid with
    | false => exact hi.leave
    | true =>
      rw [Option.isSome_some, if_pos rfl, act, if_pos rfl, leave, erase_cons_head,
        erase_of_not_mem hi.spending, erase_of_not_mem hi.unsaved]
  obtain ⟨w, c, hw, hc, hb⟩ := h
  refine ⟨fair_of_bounded ⟨w, c, hw, hc, ?_⟩, ht ▸ hi⟩
  rw [ht, returns_after]
  exact hb

/-- The stages of a redemption of the invitation by task `i`. -/
def Reading (code : String) (i : Coro.TaskId) (m : Desk Session) : Prop :=
  i ∈ (tally code m.trace).reading ∧ i ∉ (tally code m.trace).spending

def Spending (code : String) (i : Coro.TaskId) (m : Desk Session) : Prop :=
  i ∉ (tally code m.trace).reading ∧ i ∈ (tally code m.trace).spending

def Saved (code : String) (i : Coro.TaskId) (m : Desk Session) : Prop :=
  Spending code i m ∧ i ∉ (tally code m.trace).unsaved

theorem reading_stable : ∀ l m : Desk Session, Reading code i l → (budget code n).rely i l m →
    (budget code n).inv m → Reading code i m :=
  fun _ _ h hs _ => ⟨hs.reading.mpr h.1, fun hm => h.2 (hs.spending.mp hm)⟩

theorem spending_stable : ∀ l m : Desk Session, Spending code i l → (budget code n).rely i l m →
    (budget code n).inv m → Spending code i m :=
  fun _ _ h hs _ => ⟨fun hm => h.1 (hs.reading.mp hm), hs.spending.mpr h.2⟩

theorem saved_stable : ∀ l m : Desk Session, Saved code i l → (budget code n).rely i l m →
    (budget code n).inv m → Saved code i m :=
  fun l m h hs hm => ⟨spending_stable l m h.1 hs hm, fun hu => h.2 (hs.unsaved hu)⟩

theorem refused_step (h : Bounded code n m) (e : Exn) :
    (budget code n).Fair i m (m.after i (m.shared, ⟨.nothing, some e⟩)) ∧
      (tally code (m.after i (m.shared, ⟨.nothing, some e⟩)).trace).Idle i := by
  obtain ⟨w, c, hw, hc, hb⟩ := h
  apply act_step rfl hw hc
  rw [returns_after]
  exact hb

def Offered (code : String) (i : Coro.TaskId) : Option InvitationRow → Desk Session → Prop
  | none, m => (tally code m.trace).Idle i
  | some _, m => Reading code i m

theorem keeps_read (P : Platform) (hi : (tally code m.trace).Idle i) :
    Coro.Keeps (budget code n) i (Coro.post (Offered code i) (fun _ l => (tally code l.trace).Idle i))
      (select (fun t => redeemable code t.now) (fun row => .readInvitation code row.isSome) :
        Act Session (Option InvitationRow)).run m := by
  apply keeps_statement _ (fun _ => idle_stable)
  · intro k hr hk t row hrow ha
    cases hrow
    have hidle := idle_stable _ _ hi hr hk
    dsimp only at ha ⊢
    cases hrow : redeemable code t.now k.shared.working with
    | none =>
      rw [hrow] at ha
      exact tame_step (P := P) hk hidle ⟨⟨rfl, rfl⟩, trivial⟩ ha
    | some row =>
      rw [hrow] at ha
      obtain ⟨w, c, hw, hc, hb⟩ := hk
      have hb' := hb.read hidle.reading (ha rfl rfl w hw)
      obtain ⟨hfair, ht⟩ := act_step (i := i) (r := (k.shared, ⟨.readInvitation code true, none⟩)) (if_pos rfl) hw hc
        (by rw [returns_after]; exact hb')
      refine ⟨hfair, ?_⟩
      rw [Offered, Reading, Option.isSome_some, ht]
      exact ⟨mem_cons_self, hidle.spending⟩
  · intro k hr hk t e c a hca ha
    have hidle := idle_stable _ _ hi hr hk
    rcases hca with ⟨rfl, rfl⟩ | ⟨rfl, rfl⟩
    · exact refused_step hk e
    · exact abandoned_read hk hidle _ e
  · intro row l k hl hr hk
    cases row with
    | none => exact idle_stable l k hl hr hk
    | some row => exact reading_stable l k hl hr hk

theorem keeps_spend (hi : Reading code i m) :
    Coro.Keeps (budget code n) i (Coro.post (fun _ => Spending code i) (fun _ l => (tally code l.trace).Idle i))
      (execute P (fun t => .spendInvitation code t.now) : Act Session Nat).run m := by
  -- the balance after the decrement, whether or not an exception comes back with it
  have hspe : ∀ k : Desk Session, Bounded code n k → Reading code i k → ∀ now e,
      let r : Coordinator Session × Event := ({ k.shared with working := (Write.spendInvitation code now).run P k.shared.working },
        ⟨.wrote (.spendInvitation code now), e⟩)
      (budget code n).Fair i k (k.after i r) ∧ if e.isSome then (tally code (k.after i r).trace).Idle i
        else Spending code i (k.after i r) := by
    intro k hk hrea now e r
    obtain ⟨w, c, hw, hc, hb⟩ := hk
    have hb' := hb.spend hrea.1 hrea.2
    have hw' : usesLeft code r.1.working = some (w - 1) := by
      rw [show r.1.working = (Write.spendInvitation code now).run P k.shared.working from rfl, usesLeft_spend, hw]
      rfl
    obtain ⟨hfair, ht⟩ := act_step (i := i) (r := r) (if_pos rfl) hw' hc (by rw [returns_after]; exact hb')
    refine ⟨hfair, ?_⟩
    cases e with
    | none =>
      rw [Spending, ht]
      exact ⟨hb.reading.not_mem_erase, mem_cons_self⟩
    | some e => exact ht
  apply keeps_statement (fun _ => spending_stable) (fun _ => idle_stable)
  · intro k hr hk t a ha hall
    have hrea := reading_stable _ _ hi hr hk
    split at ha
    · cases ha
    · rw [if_neg ‹_›]
      exact hspe k hk hrea t.now none
  intro k hr hk t e c a hca hall
  have hrea := reading_stable _ _ hi hr hk
  rcases hca with ⟨rfl, rfl⟩ | ⟨rfl, rfl⟩
  · exact refused_step hk e
  dsimp only
  split
  · exact refused_step hk e
  · exact hspe k hk hrea t.now (some e)

theorem keeps_save (hi : Spending code i m) :
    Coro.Keeps (budget code n) i (Coro.post (fun _ => Saved code i) (fun _ l => (tally code l.trace).Idle i))
      (commit : Act Session Unit).run m := by
  have hsav : ∀ k : Desk Session, Bounded code n k → Spending code i k → ∀ e,
      let r : Coordinator Session × Event := ({ k.shared with committed := k.shared.working }, ⟨.committed, e⟩)
      (budget code n).Fair i k (k.after i r) ∧ if e.isSome then (tally code (k.after i r).trace).Idle i
        else Saved code i (k.after i r) := by
    intro k hk hspe e r
    obtain ⟨w, c, hw, hc, hb⟩ := hk
    obtain ⟨hfair, ht⟩ := act_step (i := i) (r := r) rfl hw hw (by rw [returns_after]; exact hb.save)
    refine ⟨hfair, ?_⟩
    cases e with
    | none =>
      rw [Saved, Spending, ht]
      exact ⟨hspe, not_mem_nil⟩
    | some e => exact ht
  apply keeps_statement (fun _ => saved_stable) (fun _ => idle_stable)
  · intro k hr hk t a _ _
    exact hsav k hk (spending_stable _ _ hi hr hk) none
  intro k hr hk t e c a hca _
  rcases hca with ⟨rfl, rfl⟩ | ⟨rfl, rfl⟩
  · exact refused_step hk e
  · exact hsav k hk (spending_stable _ _ hi hr hk) (some e)

theorem keeps_give (hi : Saved code i m) (invite : InvitationRow) : Coro.Keeps (budget code n) i
      (Coro.post (fun _ l => (tally code l.trace).Idle i) (fun _ l => (tally code l.trace).Idle i))
      (mark (.redeemed code invite) : Act Session Time).run m := by
  apply Coro.Keeps.step
  intro k hr hk t _
  obtain ⟨⟨hrea, hspe⟩, huns⟩ := saved_stable _ _ hi hr hk
  obtain ⟨w, c, hw, hc, hb⟩ := hk
  have hcou : returns code (k.after i (k.shared, ⟨.redeemed code invite, none⟩)).trace = returns code k.trace + 1 := by
    rw [returns_after]
    exact congrArg _ (if_pos (decide_eq_true rfl))
  obtain ⟨hfair, ht⟩ := act_step (i := i) (r := (k.shared, ⟨.redeemed code invite, none⟩)) (if_pos rfl) hw hc (by
    rw [hcou]
    exact hb.give hspe huns)
  refine ⟨hfair, fun l hl hi => idle_stable _ _ ?_ hl hi⟩
  change (tally code (k.after i (k.shared, ⟨.redeemed code invite, none⟩)).trace).Idle i
  rw [ht]
  exact ⟨hrea, hb.spending.not_mem_erase, huns⟩

theorem maintains_consume (codeInput : String) : Coro.Maintains (budget code n) i (fun m => (tally code m.trace).Idle i)
      (consumeInvitation P codeInput : Act Session _).run := by
  have hdone : ∀ (r : Except Exn (Option InvitationRow)) (l : Desk Session), (tally code l.trace).Idle i →
      Coro.Keeps (budget code n) i (fun _ l => (tally code l.trace).Idle i)
        (.done r : Coro Turn (Coordinator Session) Event _) l :=
    fun r l hl => Coro.Maintains.done idle_stable r l hl
  by_cases hcode : normalizeInviteCode P codeInput = code
  · subst hcode
    intro m hi
    apply (keeps_read P hi).through _ (fun e => hdone _)
    intro row l hrow
    cases row with
    | none => exact hdone _ l hrow
    | some invite =>
      apply (keeps_spend hrow).through _ (fun e => hdone _)
      intro _ l hl
      apply (keeps_save hl).through _ (fun e => hdone _)
      intro _ l hl
      apply (keeps_give hl invite).through _ (fun e => hdone _)
      exact fun _ l hl => hdone _ l hl
  apply maintains_tame
  apply Acts.consumeInvitation P codeInput trivial _ _ trivial _
  · intro valid
    cases valid with
    | false => trivial
    | true => exact hcode
  · exact fun now => hcode
  · exact fun invite => hcode

end Ledger

section Handlers

variable (S : Service Session) {code : String} {n : Nat} {i : Coro.TaskId}

abbrev Settles (code : String) (n : Nat) (i : Coro.TaskId) (x : Act Session α) : Prop :=
  Coro.Maintains (budget code n) i (fun m => (tally code m.trace).Idle i) x.run

theorem Settles.andThen {x : Act Session α} {f : α → Act Session β} (hx : Settles code n i x)
    (hf : ∀ a, Settles code n i (f a)) : Settles code n i (x >>= f) :=
  Coro.Maintains.andThen idle_stable hx hf

open Settles

theorem settles_lift (x : Except Exn α) : Settles code n i (Service.lift x : Act Session α) :=
  Coro.Maintains.done idle_stable x

theorem settles_throw (e : Exn) : Settles code n i (throw e : Act Session α) :=
  Coro.Maintains.done idle_stable (Except.error e)

theorem settles_redeem (code' : Cbor) : Settles code n i (S.redeem code') := by
  rw [redeem.eq_def]
  split
  · exact maintains_consume _
  · exact settles_throw _

theorem settles_register (params : Params) : Settles code n i (S.register params) := by
  apply andThen (settles_lift _)
  intro inviteCode
  apply andThen (settles_lift _)
  intro handle
  apply andThen (settles_lift _)
  intro record
  apply andThen (maintains_consume (P := S.platform) _)
  intro invite
  apply maintains_tame (P := S.platform)
  split
  · exact Acts.throw _
  apply Acts.bind (Acts.getUser _ _ trivial)
  intro existing
  split
  · exact Acts.throw _
  apply Acts.bind
  · rw [claimsBootstrapOwner]
    split
    · exact Acts.bind (Acts.listUsers _ trivial) (fun _ => Acts.pure _)
    · exact Acts.pure _
  intro claim
  apply Acts.bind (Acts.lift _)
  intro validated
  apply Acts.bind (Acts.createUser _ _ _ _ _ trivial (fun _ => trivial) trivial trivial trivial)
  exact fun _ => Acts.pure _

theorem settles_pairWithInvite (has : Bool) (inviteCode : Cbor) (handle : String) :
    Settles code n i (S.pairWithInvite has inviteCode handle) := by
  rw [pairWithInvite]
  split
  · exact maintains_tame (P := S.platform) (pure _)
  split
  · exact settles_throw _
  apply andThen (settles_redeem S _)
  intro inv
  apply maintains_tame (P := S.platform)
  split
  · exact throw _
  split
  · exact throw _
  · exact pure _

theorem settles_loginFinish (params : Params) (peerNodeId : String) :
    Settles code n i (S.loginFinish params peerNodeId) := by
  apply andThen (settles_lift _)
  intro stateId
  apply andThen (settles_lift _)
  intro ke3
  apply andThen (settles_lift _)
  intro devicePubkey
  apply andThen (settles_lift _)
  intro _
  apply andThen (maintains_tame (takeLogin S _ _ _ trivial (fun _ => trivial)))
  intro state
  apply andThen
  · exact maintains_tame (Acts.getDevice S.platform _ trivial (fun _ => trivial))
  intro existing
  apply andThen
  · rw [bindDevice.eq_def]
    split
    · apply andThen
      · exact maintains_tame (Acts.userHasDevices S.platform _ trivial (fun _ => trivial))
      intro has
      apply andThen (settles_pairWithInvite S _ _ _)
      intro _
      exact maintains_tame (Acts.addDevice S.platform _ _ _ trivial (fun _ => trivial) trivial)
    apply maintains_tame (P := S.platform)
    split
    · exact Acts.throw _
    apply Acts.catching (Acts.touchDevice S.platform _ trivial (fun _ => trivial) trivial)
    intro e
    split
    · exact pure _
    · exact throw _
  intro _
  apply andThen (maintains_tame (issueCert S _ _ _ trivial (fun _ => trivial)))
  exact fun cert => maintains_tame (P := S.platform) (pure _)

theorem settles_addAgent (params : Params) : Settles code n i (S.addAgent params) := by
  apply andThen
  · rw [addAgentOwner]
    split
    · apply maintains_tame (P := S.platform)
      exact Acts.bind (Acts.verifyAdminCert S _ trivial) (fun _ => Acts.pure _)
    split
    · apply andThen (settles_redeem S _)
      intro inv
      apply maintains_tame (P := S.platform)
      split
      · exact Acts.throw _
      · exact Acts.pure _
    · exact settles_throw _
  intro ownerHandle
  apply maintains_tame (P := S.platform)
  apply Acts.bind (Acts.lift _)
  intro handle
  apply Acts.bind (Acts.lift _)
  intro nodeId
  apply Acts.bind (Acts.registerAgent S.platform _ _ _ _ trivial (fun _ => trivial) trivial)
  exact fun _ => Acts.pure _

theorem settles_agentLogin (params : Params) (peerNodeId : String) :
    Settles code n i (S.agentLogin params peerNodeId) := by
  apply andThen (settles_lift _)
  intro inviteCode
  apply andThen (settles_lift _)
  intro handle
  apply andThen (settles_lift _)
  intro nodeId
  split
  · exact settles_throw _
  apply andThen (maintains_consume (P := S.platform) _)
  intro inv
  apply maintains_tame (P := S.platform)
  split
  · exact Acts.throw _
  apply Acts.bind (Acts.registerAgent S.platform _ _ _ _ trivial (fun _ => trivial) trivial)
  intro _
  split
  · exact Acts.throw _
  · apply Acts.bind (Acts.issueCert S _ _ _ trivial (fun _ => trivial))
    exact fun _ => Acts.pure _

theorem settles_loginInit (params : Params) : Settles code n i (S.loginInit params) := by
  apply maintains_tame (P := S.platform)
  exact loginInit S params trivial

theorem settles_revokeDevice (params : Params) : Settles code n i (S.revokeDevice params) := by
  apply maintains_tame (P := S.platform)
  exact revokeDeviceRpc S params trivial (fun _ => trivial) trivial

theorem settles_handleOneRpc (request : Request) : Settles code n i (S.handleOneRpc request) := by
  have hhan : ∀ params, Settles code n i (S.handler request.method params request.peerNodeId) := by
    intro params
    rw [handler.eq_def]
    split
    · exact settles_register S params
    · exact settles_loginInit S params
    · exact settles_loginFinish S params _
    · exact settles_addAgent S params
    · exact settles_agentLogin S params _
    · exact settles_revokeDevice S params
  apply andThen
  · apply Coro.Maintains.catching idle_stable
    · apply andThen
      · rw [dispatch]
        split
        · exact hhan _
        split
        · exact hhan _
        · exact settles_throw _
      · exact fun _ => maintains_tame (P := S.platform) (pure _)
    · intro e
      apply maintains_tame (P := S.platform)
      exact failure _ e
  intro response
  apply maintains_tame (P := S.platform)
  apply Acts.bind
  · apply Acts.mark _ trivial
    exact fun _ _ => ⟨rfl, rfl⟩
  exact fun _ => pure _

/-- However the requests interleave, an invitation with `n` uses is returned at most `n` times and its count
never falls below zero, where the redemptions are spaced. -/
theorem redeemed_within_uses {requests : Coro.TaskId → Request} {c : Coordinator Session}
    {q : Coro.Pool Turn (Coordinator Session) Event (Except Exn Response)}
    (hw : usesLeft code c.working = some (n : Int)) (hc : usesLeft code c.committed = some (n : Int))
    (h : Runs.ReachesUnder Coro.Pool.next (Coro.Pool.Allowed (Spaced code)) (S.serving requests c) q) :
    returns code q.now.trace ≤ n ∧ (∀ uses, usesLeft code q.now.shared.working = some uses → 0 ≤ uses) ∧
      ∀ uses, usesLeft code q.now.shared.committed = some uses → 0 ≤ uses := by
  have hsou : Coro.Pool.Sound (budget code n) (S.serving requests c) := by
    refine ⟨⟨n, n, hw, hc, Balance.start n⟩, fun j => ?_⟩
    have hidle : ({} : Tally).Idle j := ⟨not_mem_nil, not_mem_nil, not_mem_nil⟩
    exact (settles_handleOneRpc S (requests j) _ hidle).mono (fun _ _ _ => trivial)
  obtain ⟨⟨w, c', hw', hc', hb⟩, _⟩ := hsou.reaches h
  have hroom := hb.room
  have hspe := hb.spent
  have hbeh := hb.behind
  refine ⟨by omega, ?_, ?_⟩
  · intro uses huses
    rw [hw'] at huses
    cases huses
    omega
  intro uses huses
  rw [hc'] at huses
  cases huses
  omega

end Handlers

section Run

def ticket : InvitationRow := ⟨"abcd", .agent, none, none, 1, 1000, 0, none⟩

def oneTicket : Db := ⟨none, Dict.empty, Dict.empty, Dict.empty, Dict.empty.set "abcd" ticket⟩

def enrolling (i : Coro.TaskId) : Request :=
  ⟨.addAgent, .map [(.text "invite", .text "abcd"), (.text "handle", .text (if i = 0 then "fox" else "owl")),
    (.text "node_id", .text "n")], "peer"⟩

def twoEnrolments : Coro.Pool Turn (Coordinator Bytes) Event (Except Exn Response) :=
  Service.sample.serving enrolling ⟨oneTicket, oneTicket, Dict.empty⟩

def oneEnrolment : List (Coro.TaskId × Turn) :=
  [(0, { now := 1 }), (0, { now := 2 }), (0, { now := 2 }), (0, { now := 2 }), (0, { now := 3 }), (0, { now := 3 })]

def overlapping : List (Coro.TaskId × Turn) :=
  [(0, { now := 1 }), (1, { now := 1 }), (0, { now := 2 }), (0, { now := 2 }), (0, { now := 2 }),
    (1, { now := 3 }), (1, { now := 3 }), (1, { now := 3 })]

theorem enrolment_spends_ticket : ∃ q, Runs.run Coro.Pool.next twoEnrolments oneEnrolment = some q ∧
    returns "abcd" q.now.trace ≤ 1 ∧ (∀ uses, usesLeft "abcd" q.now.shared.working = some uses → 0 ≤ uses) ∧
      ∀ uses, usesLeft "abcd" q.now.shared.committed = some uses → 0 ≤ uses := by
  have hrun : (Runs.run Coro.Pool.next twoEnrolments oneEnrolment).isSome := by decide
  obtain ⟨q, hq⟩ := Option.isSome_iff_exists.mp hrun
  exact ⟨q, hq, redeemed_within_uses sample (by decide) (by decide) (Runs.reachesUnder_of_all (by decide) hq)⟩

theorem ticket_spent_twice : ∃ q, Runs.run Coro.Pool.next twoEnrolments overlapping = some q ∧
    returns "abcd" q.now.trace = 2 ∧ usesLeft "abcd" q.now.shared.committed = some (-1) := by
  have hrun : (Runs.run Coro.Pool.next twoEnrolments overlapping).map (fun q =>
      (returns "abcd" q.now.trace, usesLeft "abcd" q.now.shared.committed)) = some (2, some (-1)) := by decide
  obtain ⟨q, hq, hresult⟩ := Option.map_eq_some_iff.mp hrun
  exact ⟨q, hq, congrArg Prod.fst hresult, congrArg Prod.snd hresult⟩

end Run

end OpenAgent.Identity
