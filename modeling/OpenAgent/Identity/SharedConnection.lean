import OpenAgent.Identity.Effects
import OpenAgent.Lib.Journal

namespace OpenAgent.Identity

open Py List Journal Coro

variable {Session α β : Type}

inductive StoreCall where
  | createUser (handle : String) (pakeRecord : Bytes) (pakeAlgo : String) (claimBootstrapAgentOwner : Bool)
  | addDevice (devicePubkey : Bytes) (userHandle : String) (label : Cbor)
  | revokeDevice (devicePubkey : Bytes)
  | consumeInvitation (code : String)
  | registerAgent (handle nodeId ownerHandle : String) (label : Cbor)
  | setUserStatus (handle status : String)
  | deleteUser (handle : String)

namespace StoreCall

variable (P : Platform)

def run : StoreCall → Act Session Unit
  | createUser handle pakeRecord pakeAlgo claim => do let _ ← Identity.createUser P handle pakeRecord pakeAlgo claim
  | addDevice devicePubkey userHandle label => Identity.addDevice P devicePubkey userHandle label
  | revokeDevice devicePubkey => do let _ ← Identity.revokeDevice P devicePubkey
  | consumeInvitation code => do let _ ← Identity.consumeInvitation P code
  | registerAgent handle nodeId ownerHandle label => Identity.registerAgent P handle nodeId ownerHandle label
  | setUserStatus handle status => do let _ ← Identity.setUserStatus P handle status
  | deleteUser handle => do let _ ← Identity.deleteUser P handle

def finish (call : StoreCall) : Act Session Unit :=
  tryCatch (do
      call.run P
      let _ ← mark (.answered true))
    (fun e => do
      let _ ← mark (.answered false)
      throw e)

end StoreCall

def calling (P : Platform) (calls : Coro.TaskId → StoreCall) (db : Db)
    (logins : Dict String (LoginInProgress Session)) : Coro.Pool Turn (Coordinator Session) Event (Except Exn Unit) where
  now := ⟨⟨db, db, logins⟩, []⟩
  coro := fun i => ((calls i).finish P).run

namespace Action

def write? : Action → Option Write
  | .wrote w => some w
  | _ => none

def isRollback : Action → Bool
  | .rolledBack => true
  | _ => false

def returns : Action → Bool
  | .answered ok => ok
  | _ => false

theorem returns_iff {a : Action} : a.returns = true ↔ a = .answered true := by
  cases a with
  | answered ok => simp [returns]
  | _ => exact ⟨by rintro ⟨⟩, by rintro ⟨⟩⟩

end Action

def Write.inserts : Write → Bool
  | .insertUser _ => true
  | _ => false

abbrev History (Session : Type) := List (Coro.Entry (Coordinator Session) Event)

/-- What an action of task `i` makes of the writes. -/
def Action.record (j : Journal Coro.TaskId Write) (i : Coro.TaskId) : Action → Journal Coro.TaskId Write
  | .wrote w => j.write i w
  | .committed => j.commit
  | .rolledBack => j.rollback
  | _ => j

def journal (log : History Session) : Journal Coro.TaskId Write :=
  log.foldl (fun j x => x.event.action.record j x.task) {}

/-- The writes of task `i`. -/
def writesOf (i : Coro.TaskId) (log : History Session) : List Write :=
  (log.filter (fun x => x.task = i)).filterMap (fun x => x.event.action.write?)

/-- An exception came back to task `i`. -/
def raisedIn (i : Coro.TaskId) (log : History Session) : Bool := log.any (fun x => x.task = i && x.event.raised.isSome)

/-- At every turn the two views are what the writes make of the database; an operation that returns has its writes
committed, one that raises has none there. -/
structure WritesKept (P : Platform) (db : Db) (log : History Session) : Prop where
  views : ∀ pre x post, log = pre ++ x :: post →
    x.before.committed = Journal.replay (Write.run P) db (journal pre).saved ∧
      x.before.working = Journal.replay (Write.run P) db (journal pre).all
  returned : ∀ pre x post, log = pre ++ x :: post → x.event.action = .answered true →
    ∀ w ∈ writesOf x.task pre, (x.task, w) ∈ (journal pre).saved
  raised : ∀ pre x post, log = pre ++ x :: post → x.event.action = .answered false →
    ∀ y ∈ (journal pre).all, y.1 ≠ x.task

/-- A rollback finds only writes of its own in the open transaction, and none of its own committed. An exception
comes back to a task that has written nothing, or to one that inserts a user and rolls back on it. -/
def Sheltered (m : Coro.Moment (Coordinator Session) Event) (i : Coro.TaskId) (e : Event) : Prop :=
  (e.action.isRollback = true → (∀ y ∈ (journal m.trace).unsaved, y.1 = i) ∧ ∀ y ∈ (journal m.trace).saved, y.1 ≠ i) ∧
  ∀ x ∈ e.raised, e.action.isRollback = true ∨ (writesOf i m.trace).isEmpty ∧ e.action.write?.isNone ∨
    x.isException = true ∧ (writesOf i m.trace).any Write.inserts = true ∧ raisedIn i m.trace = false

instance (m : Coro.Moment (Coordinator Session) Event) (i : Coro.TaskId) (e : Event) : Decidable (Sheltered m i e) :=
  inferInstanceAs (Decidable (_ ∧ _))

variable {P : Platform} {db : Db} {m n : Coro.Moment (Coordinator Session) Event} {i j : Coro.TaskId}
  {r : Coordinator Session × Event}

section Steps

theorem journal_concat (log : History Session) (x : Coro.Entry (Coordinator Session) Event) :
    journal (log ++ [x]) = x.event.action.record (journal log) x.task := by
  rw [journal, foldl_append]
  rfl

theorem journal_after : journal (m.after i r).trace = r.2.action.record (journal m.trace) i := journal_concat _ _

theorem writesOf_concat (log : History Session) (x : Coro.Entry (Coordinator Session) Event) :
    writesOf j (log ++ [x]) = writesOf j log ++ if x.task = j then x.event.action.write?.toList else [] := by
  rw [writesOf, filter_append, filterMap_append, writesOf]
  congr 1
  rw [filter_cons]
  by_cases hj : x.task = j
  · rw [if_pos (decide_eq_true hj), if_pos hj, filter_nil]
    cases h : x.event.action.write? with
    | none | some _ => simp [h]
  · rw [if_neg (by simpa using hj), if_neg hj]
    rfl

theorem writesOf_after : writesOf j (m.after i r).trace =
    writesOf j m.trace ++ if i = j then r.2.action.write?.toList else [] := writesOf_concat _ _

theorem raisedIn_after : raisedIn j (m.after i r).trace = (raisedIn j m.trace || (i = j && r.2.raised.isSome)) := by
  rw [raisedIn, Moment.after, any_append, any_cons, any_nil, Bool.or_false]
  rfl

variable {k : Journal Coro.TaskId Write} {a : Action} {y : Coro.TaskId × Write}

theorem saved_record (h : y ∈ k.saved) : y ∈ (a.record k i).saved := by
  cases a with
  | committed => exact mem_all_of_saved h
  | _ => exact h

theorem all_record (h : y ∈ (a.record k i).all) : y ∈ k.all ∨ ∃ w, a.write? = some w ∧ y = (i, w) := by
  cases a with
  | wrote w => exact (mem_all_write.mp h).imp_right (fun hy => ⟨w, rfl, hy⟩)
  | committed => exact .inl (all_commit ▸ h)
  | rolledBack => exact .inl (mem_all_of_saved (all_rollback ▸ h))
  | _ => exact .inl h

theorem all_kept (h : y ∈ k.all)
    (ha : a.isRollback = true → y ∈ k.saved) : y ∈ (a.record k i).all := by
  cases a with
  | wrote w => exact mem_all_write.mpr (.inl h)
  | committed =>
    change y ∈ k.commit.all
    rw [all_commit]
    exact h
  | rolledBack =>
    change y ∈ k.rollback.all
    rw [all_rollback]
    exact ha rfl
  | _ => exact h

theorem mem_writesOf_of_all {log : History Session} {w : Write} (h : (i, w) ∈ (journal log).all) : w ∈ writesOf i log := by
  induction log using List.reverseRecOn with
  | nil => cases h
  | append_singleton log x ih =>
    rw [writesOf_concat]
    rw [journal_concat] at h
    rcases all_record h with h | ⟨w', hw, hy⟩
    · exact mem_append_left _ (ih h)
    cases hy
    rw [if_pos rfl, hw]
    exact mem_append_right _ (mem_singleton_self w)

def Viewed (P : Platform) (db : Db) (m : Coro.Moment (Coordinator Session) Event) : Prop :=
  m.shared.committed = Journal.replay (Write.run P) db (journal m.trace).saved ∧
    m.shared.working = Journal.replay (Write.run P) db (journal m.trace).all

theorem Viewed.after (h : Viewed P db m) (hk : Honest P m.shared r) : Viewed P db (m.after i r) := by
  obtain ⟨hc, hw⟩ := h
  rw [Viewed, journal_after]
  obtain ⟨c, a, e⟩ := r
  cases a with
  | wrote w =>
    refine ⟨hk.2.trans hc, hk.1.trans ?_⟩
    rw [hw]
    exact (congrArg _ all_write).trans (replay_concat _ _ _ _ _) |>.symm
  | committed => exact ⟨hk.2.trans hw, (hk.1.trans hw).trans (congrArg _ all_commit.symm)⟩
  | rolledBack => exact ⟨hk.2.trans hc, (hk.1.trans hc).trans (congrArg _ all_rollback.symm)⟩
  | readDevice _ _ | readUserDevices _ _ => exact ⟨hk.1.2.trans hc, hk.1.1.trans hw⟩
  | _ => exact ⟨hk.2.trans hc, hk.1.trans hw⟩

structure Spared (i : Coro.TaskId) (m n : Coro.Moment (Coordinator Session) Event) : Prop where
  writes : writesOf i n.trace = writesOf i m.trace
  raised : raisedIn i n.trace = raisedIn i m.trace
  saved : ∀ y ∈ (journal m.trace).saved, y.1 = i → y ∈ (journal n.trace).saved
  kept : ∀ y ∈ (journal m.trace).all, y.1 = i → y ∈ (journal n.trace).all
  only : ∀ y ∈ (journal n.trace).all, y.1 = i → y ∈ (journal m.trace).all

def keeping (P : Platform) (db : Db) : Coro.Contract (Coordinator Session) Event where
  inv m := Viewed P db m ∧ WritesKept P db m.trace
  allowed := Sheltered
  rely := Spared
  refl _ _ := ⟨rfl, rfl, fun _ h _ => h, fun _ h _ => h, fun _ h _ => h⟩
  trans _ _ _ _ h k := ⟨k.writes.trans h.writes, k.raised.trans h.raised, fun y hy hi => k.saved y (h.saved y hy hi) hi,
    fun y hy hi => k.kept y (h.kept y hy hi) hi, fun y hy hi => h.only y (k.only y hy hi) hi⟩

theorem keeping_step (h : (keeping P db).inv m) (hk : Honest P m.shared r) (ha : Sheltered m i r.2)
    (hret : r.2.action = .answered true → ∀ w ∈ writesOf i m.trace, (i, w) ∈ (journal m.trace).saved)
    (hrai : r.2.action = .answered false → ∀ y ∈ (journal m.trace).all, y.1 ≠ i) :
    (keeping P db).Fair i m (m.after i r) := by
  obtain ⟨hvie, hkept⟩ := h
  have hlast : ∀ {Q : History Session → Entry (Coordinator Session) Event → Prop},
      (∀ pre x post, m.trace = pre ++ x :: post → Q pre x) → Q m.trace ⟨i, m.shared, r.2⟩ →
      ∀ pre x post, (m.after i r).trace = pre ++ x :: post → Q pre x := by
    intro Q hall hx pre x post hspl
    rcases eq_nil_or_concat post with rfl | ⟨post, z, rfl⟩
    · obtain ⟨rfl, heq⟩ := append_inj' hspl rfl
      cases heq
      exact hx
    · have hspl' : m.trace ++ [⟨i, m.shared, r.2⟩] = (pre ++ x :: post) ++ [z] := hspl.trans (by simp)
      exact hall pre x post (append_inj' hspl' rfl).1
  refine ⟨⟨hvie.after hk, ?_, ?_, ?_⟩, fun j hj => ⟨?_, ?_, ?_, ?_, ?_⟩⟩
  · exact hlast hkept.views hvie
  · exact hlast hkept.returned hret
  · exact hlast hkept.raised hrai
  · rw [writesOf_after, if_neg (Ne.symm hj), append_nil]
  · rw [raisedIn_after, decide_eq_false (Ne.symm hj), Bool.false_and, Bool.or_false]
  · intro y hy _
    rw [journal_after]
    exact saved_record hy
  · intro y hy hyj
    rw [journal_after]
    apply all_kept hy
    intro hrol
    rcases mem_all_iff.mp hy with hy | hy
    · exact hy
    · exact absurd (((ha.1 hrol).1 y hy).symm.trans hyj) (Ne.symm hj)
  · intro y hy hyj
    rw [journal_after] at hy
    rcases all_record hy with hy | ⟨w, _, rfl⟩
    · exact hy
    · exact absurd hyj (Ne.symm hj)

end Steps

section Stages

def Held (i : Coro.TaskId) (m : Coro.Moment (Coordinator Session) Event) : Prop :=
  ∀ w ∈ writesOf i m.trace, (i, w) ∈ (journal m.trace).all

structure Steady (i : Coro.TaskId) (m : Coro.Moment (Coordinator Session) Event) : Prop where
  held : Held i m
  plain : ∀ w ∈ writesOf i m.trace, w.inserts = false

def Done (i : Coro.TaskId) (m : Coro.Moment (Coordinator Session) Event) : Prop :=
  ∀ w ∈ writesOf i m.trace, (i, w) ∈ (journal m.trace).saved

def Gone (i : Coro.TaskId) (m : Coro.Moment (Coordinator Session) Event) : Prop :=
  ∀ y ∈ (journal m.trace).all, y.1 ≠ i

def Unwritten (i : Coro.TaskId) (m : Coro.Moment (Coordinator Session) Event) : Prop := writesOf i m.trace = []

theorem Held.stable (h : Held i m) (hr : Spared i m n) : Held i n := by
  intro w hw
  rw [hr.writes] at hw
  exact hr.kept _ (h w hw) rfl

theorem Steady.stable (h : Steady i m) (hr : Spared i m n) : Steady i n :=
  ⟨h.held.stable hr, by rw [hr.writes]; exact h.plain⟩

theorem Done.stable (h : Done i m) (hr : Spared i m n) : Done i n := by
  intro w hw
  rw [hr.writes] at hw
  exact hr.saved _ (h w hw) rfl

theorem Gone.stable (h : Gone i m) (hr : Spared i m n) : Gone i n :=
  fun y hy hi => h y (hr.only y hy hi) hi

theorem Unwritten.stable (h : Unwritten i m) (hr : Spared i m n) : Unwritten i n := hr.writes.trans h

theorem Unwritten.steady (h : Unwritten i m) : Steady i m := by
  refine ⟨?_, ?_⟩
  · intro w hw
    rw [h] at hw
    cases hw
  · rw [h]
    rintro _ ⟨⟩

theorem Unwritten.done (h : Unwritten i m) : Done i m := by
  intro w hw
  rw [h] at hw
  cases hw

theorem Unwritten.gone (h : Unwritten i m) : Gone i m := by
  rintro ⟨j, w⟩ hy rfl
  have hw := mem_writesOf_of_all hy
  rw [h] at hw
  cases hw

def Inner : Action → Prop
  | .rolledBack | .answered _ => False
  | _ => True

theorem inner_step (h : (keeping P db).inv m) (hk : Honest P m.shared r) (ht : Inner r.2.action)
    (ha : Sheltered m i r.2) : (keeping P db).Fair i m (m.after i r) := by
  apply keeping_step h hk ha
  · intro hr
    rw [hr] at ht
    exact absurd ht id
  intro hr
  rw [hr] at ht
  exact absurd ht id

theorem Held.after (h : Held i m) (ht : Inner r.2.action) : Held i (m.after i r) := by
  intro w hw
  rw [writesOf_after, if_pos rfl] at hw
  rw [journal_after]
  rcases mem_append.mp hw with hw | hw
  · apply all_kept (h w hw)
    intro hrol
    obtain ⟨c, a, e⟩ := r
    cases a with
    | rolledBack => exact absurd ht id
    | _ => cases hrol
  obtain ⟨c, a, e⟩ := r
  cases a with
  | wrote w' =>
    cases mem_singleton.mp hw
    exact mem_all_write.mpr (.inr rfl)
  | _ => cases hw

theorem Unwritten.after (h : Unwritten i m) (hw : r.2.action.write? = none) : Unwritten i (m.after i r) := by
  rw [Unwritten, writesOf_after, if_pos rfl, hw, h]
  rfl

theorem gone_of_raised {x : Exn} (ht : Inner r.2.action) (hx : r.2.raised = some x) (ha : Sheltered m i r.2)
    (hpla : ∀ w ∈ writesOf i m.trace, w.inserts = false) : Gone i (m.after i r) := by
  rcases ha.2 x hx with hrol | ⟨hemp, hnone⟩ | ⟨_, hins, _⟩
  · obtain ⟨c, a, e⟩ := r
    cases a with
    | rolledBack => exact absurd ht id
    | _ => cases hrol
  · apply Unwritten.gone
    exact Unwritten.after (isEmpty_iff.mp hemp) (Option.isNone_iff_eq_none.mp hnone)
  obtain ⟨w, hw, hinse⟩ := any_eq_true.mp hins
  rw [hpla w hw] at hinse
  cases hinse

theorem keeps_inner {f : Turn → Coordinator Session → Except Exn α × Coordinator Session × Action}
    {B : Coro.Moment (Coordinator Session) Event → Prop}
    (hf : ∀ t c e, Honest P c ((f t c).2.1, ⟨(f t c).2.2, e⟩) ∧ Inner (f t c).2.2)
    (hstable : ∀ k n, B k → Spared i k n → B n) (h : Steady i m)
    (hok : ∀ k t e, Spared i m k → B (k.after i ((f t k.shared).2.1, ⟨(f t k.shared).2.2, e⟩))) :
    Coro.Keeps (keeping P db) i (Coro.post (fun _ => B) (fun _ => Gone i)) (statement f).run m := by
  apply keeps_statement
  · exact fun _ k n hk hr _ => hstable k n hk hr
  · exact fun _ _ _ hg hr _ => hg.stable hr
  · intro k hr hk t a _ ha
    obtain ⟨hhon, hinn⟩ := hf t k.shared none
    exact ⟨inner_step hk hhon hinn ha, hok k t none hr⟩
  · intro k hr hk t e c a hca ha
    have hpla := (h.stable hr).plain
    rcases hca with ⟨rfl, rfl⟩ | ⟨rfl, rfl⟩
    · exact ⟨inner_step hk ⟨rfl, rfl⟩ trivial ha, gone_of_raised trivial rfl ha hpla⟩
    · obtain ⟨hhon, hinn⟩ := hf t k.shared (some e)
      exact ⟨inner_step hk hhon hinn ha, gone_of_raised hinn rfl ha hpla⟩

def executed (P : Platform) (w : Turn → Write) (t : Turn) (c : Coordinator Session) :
    Except Exn Nat × Coordinator Session × Action :=
  if (w t).refused P c.working then (.error (.sqlite false), c, .nothing)
  else (.ok ((w t).rowcount c.working), { c with working := (w t).run P c.working }, .wrote (w t))

theorem executed_inner (w : Turn → Write) (t : Turn) (c : Coordinator Session) (e : Option Exn) :
    Honest P c ((executed P w t c).2.1, ⟨(executed P w t c).2.2, e⟩) ∧ Inner (executed P w t c).2.2 := by
  rw [executed]
  split
  · exact ⟨⟨rfl, rfl⟩, trivial⟩
  · exact ⟨⟨rfl, rfl⟩, trivial⟩

theorem keeps_write {w : Turn → Write} (hw : ∀ t, (w t).inserts = false) (h : Steady i m) :
    Coro.Keeps (keeping P db) i (Coro.post (fun _ => Steady i) (fun _ => Gone i))
      (execute P w : Act Session Nat).run m := by
  apply keeps_inner (executed_inner w) (fun _ _ => Steady.stable) h
  intro k t e hr
  have hk := h.stable hr
  refine ⟨hk.held.after (executed_inner w t k.shared none).2, ?_⟩
  intro w' hw'
  rw [writesOf_after, if_pos rfl] at hw'
  rcases mem_append.mp hw' with hw' | hw'
  · exact hk.plain w' hw'
  dsimp only [executed] at hw'
  split at hw'
  · cases hw'
  · cases mem_singleton.mp hw'
    exact hw t

theorem Held.committed (h : Held i m) {c : Coordinator Session} {e : Option Exn} : Done i (m.after i (c, ⟨.committed, e⟩)) := by
  intro w hw
  rw [writesOf_after, if_pos rfl] at hw
  rw [journal_after]
  change w ∈ writesOf i m.trace ++ [] at hw
  rw [append_nil] at hw
  exact h w hw

theorem keeps_committed (h : Steady i m) : Coro.Keeps (keeping P db) i (Coro.post (fun _ => Done i) (fun _ => Gone i))
    (commit : Act Session Unit).run m := by
  apply keeps_inner _ (fun _ _ => Done.stable) h
  · exact fun _ _ _ hr => (h.stable hr).held.committed
  · exact fun _ _ _ => ⟨⟨rfl, rfl⟩, trivial⟩

end Stages

section Calls

def Concludes (P : Platform) (db : Db) (i : Coro.TaskId) (x : Act Session α) : Prop :=
  ∀ m, Unwritten i m → Coro.Keeps (keeping P db) i (Coro.post (fun _ => Done i) (fun _ => Gone i)) x.run m

theorem keeps_raised {e : Exn} {B : α → Coro.Moment (Coordinator Session) Event → Prop} (h : Gone i m) :
    Coro.Keeps (keeping P db) i (Coro.post B (fun _ => Gone i))
      (.done (.error e) : Coro Turn (Coordinator Session) Event (Except Exn α)) m :=
  fun _ hr _ => h.stable hr

theorem keeps_returned {a : α} (h : Done i m) : Coro.Keeps (keeping P db) i (Coro.post (fun _ => Done i) (fun _ => Gone i))
    (.done (.ok a) : Coro Turn (Coordinator Session) Event (Except Exn α)) m :=
  fun _ hr _ => h.stable hr

theorem concludes_write {w : Turn → Write} (hw : ∀ t, (w t).inserts = false) (f : Nat → α) : Concludes P db i (do
      let n ← execute P w
      commit
      return f n : Act Session α) := by
  intro m h
  apply (keeps_write hw h.steady).through _ (fun _ _ => keeps_raised)
  intro n k hk
  apply (keeps_committed hk).through _ (fun _ _ => keeps_raised)
  exact fun _ _ => keeps_returned

theorem concludes_write_unit {w : Turn → Write} (hw : ∀ t, (w t).inserts = false) : Concludes P db i (do
      let _ ← execute P w
      commit : Act Session Unit) := by
  intro m h
  apply (keeps_write hw h.steady).through _ (fun _ _ => keeps_raised)
  exact fun _ _ hk => keeps_committed hk

theorem concludes_ignored {x : Act Session α} (hx : Concludes P db i x) : Concludes P db i (do let _ ← x : Act Session Unit) := by
  intro m h
  apply (hx m h).through _ (fun _ _ => keeps_raised)
  exact fun _ _ => keeps_returned

theorem concludes_deleteUser (handle : String) : Concludes P db i (deleteUser P handle : Act Session Bool) := by
  intro m h
  apply (keeps_write (fun _ => rfl) h.steady).through _ (fun _ _ => keeps_raised)
  intro _ k hk
  apply (keeps_write (fun _ => rfl) hk).through _ (fun _ _ => keeps_raised)
  intro n k hk
  apply (keeps_committed hk).through _ (fun _ _ => keeps_raised)
  exact fun _ _ => keeps_returned

theorem concludes_setUserStatus (handle status : String) :
    Concludes P db i (setUserStatus P handle status : Act Session Bool) := by
  rw [setUserStatus.eq_def]
  split
  · exact concludes_write (fun _ => rfl) (· != 0)
  · exact concludes_write (fun _ => rfl) (· != 0)
  · exact fun m h => keeps_raised h.gone

theorem concludes_consumeInvitation (codeInput : String) :
    Concludes P db i (consumeInvitation P codeInput : Act Session (Option InvitationRow)) := by
  intro m h
  have hread : Keeps (keeping P db) i (post (fun _ => Unwritten i) (fun _ => Gone i))
      (select (fun t => redeemable (normalizeInviteCode P codeInput) t.now)
        (fun row => .readInvitation (normalizeInviteCode P codeInput) row.isSome) : Act Session _).run m := by
    apply keeps_inner _ (fun _ _ => Unwritten.stable) h.steady
    · exact fun k t e hr => (h.stable hr).after rfl
    · exact fun _ _ _ => ⟨⟨rfl, rfl⟩, trivial⟩
  apply hread.through _ (fun _ _ => keeps_raised)
  intro row k hk
  cases row with
  | none => exact keeps_returned hk.done
  | some invite =>
    apply (keeps_write (fun _ => rfl) hk.steady).through _ (fun _ _ => keeps_raised)
    intro _ k hk
    apply (keeps_committed hk).through _ (fun _ _ => keeps_raised)
    intro _ k hk
    have hmark : Keeps (keeping P db) i (post (fun _ => Done i) (fun _ => Gone i))
        (mark (.redeemed (normalizeInviteCode P codeInput) invite) : Act Session Time).run k := by
      apply keeps_atomic
      · exact fun _ _ _ hd hr _ => hd.stable hr
      · exact fun _ _ _ hg hr _ => hg.stable hr
      · intro n hr hn t a _ ha
        refine ⟨inner_step (P := P) hn ⟨rfl, rfl⟩ trivial ha, ?_⟩
        intro w hw
        rw [writesOf_after, if_pos rfl] at hw
        change w ∈ writesOf i n.trace ++ [] at hw
        rw [append_nil] at hw
        rw [journal_after]
        exact hk.stable hr w hw
      · rintro n _ _ t e ⟨⟩
    apply hmark.through _ (fun _ _ => keeps_raised)
    exact fun _ _ => keeps_returned

/-- After an exception in `create_user`: one that is not caught has found no writes. -/
structure Thrown (i : Coro.TaskId) (e : Exn) (m : Coro.Moment (Coordinator Session) Event) : Prop where
  raised : raisedIn i m.trace = true
  uncaught : e.isException = false → Gone i m

theorem Thrown.stable {e : Exn} {n : Coro.Moment (Coordinator Session) Event} (h : Thrown i e m) (hr : Spared i m n) :
    Thrown i e n := ⟨hr.raised.trans h.raised, fun he => (h.uncaught he).stable hr⟩

theorem thrown_of_raised {r : Coordinator Session × Event} {x : Exn} (ht : Inner r.2.action)
    (hx : r.2.raised = some x) (ha : Sheltered m i r.2) : Thrown i x (m.after i r) := by
  refine ⟨?_, fun he => ?_⟩
  · rw [raisedIn_after, hx]
    simp
  rcases ha.2 x hx with hrol | ⟨hemp, hnone⟩ | ⟨hexc, _⟩
  · obtain ⟨c, a, e⟩ := r
    cases a with
    | rolledBack => exact absurd ht id
    | _ => cases hrol
  · apply Unwritten.gone
    exact Unwritten.after (isEmpty_iff.mp hemp) (Option.isNone_iff_eq_none.mp hnone)
  · rw [he] at hexc
    cases hexc

theorem keeps_tried {f : Turn → Coordinator Session → Except Exn α × Coordinator Session × Action}
    {B : Coro.Moment (Coordinator Session) Event → Prop}
    (hf : ∀ t c e, Honest P c ((f t c).2.1, ⟨(f t c).2.2, e⟩) ∧ Inner (f t c).2.2)
    (hstable : ∀ k n, B k → Spared i k n → B n) (h : Held i m)
    (hok : ∀ k t e, Held i k → B (k.after i ((f t k.shared).2.1, ⟨(f t k.shared).2.2, e⟩))) :
    Coro.Keeps (keeping P db) i (Coro.post (fun _ => B) (Thrown i)) (statement f).run m := by
  apply keeps_statement
  · exact fun _ k n hk hr _ => hstable k n hk hr
  · exact fun _ _ _ hg hr _ => hg.stable hr
  · intro k hr hk t a _ ha
    obtain ⟨hhon, hinn⟩ := hf t k.shared none
    exact ⟨inner_step hk hhon hinn ha, hok k t none (h.stable hr)⟩
  · intro k hr hk t e c a hca ha
    rcases hca with ⟨rfl, rfl⟩ | ⟨rfl, rfl⟩
    · exact ⟨inner_step hk ⟨rfl, rfl⟩ trivial ha, thrown_of_raised trivial rfl ha⟩
    · obtain ⟨hhon, hinn⟩ := hf t k.shared (some e)
      exact ⟨inner_step hk hhon hinn ha, thrown_of_raised hinn rfl ha⟩

theorem keeps_rollback {e : Exn} (h : Thrown i e m) : Coro.Keeps (keeping P db) i
    (Coro.post (fun _ => Gone i) (fun _ => Gone i)) (rollback : Act Session Unit).run m := by
  have hrol : ∀ (k : Moment (Coordinator Session) Event) x, (keeping P db).inv k → Sheltered k i ⟨.rolledBack, x⟩ →
      let r : Coordinator Session × Event := ({ k.shared with working := k.shared.committed }, ⟨.rolledBack, x⟩)
      (keeping P db).Fair i k (k.after i r) ∧ Gone i (k.after i r) := by
    intro k x hk ha r
    refine ⟨keeping_step hk ⟨rfl, rfl⟩ ha (by rintro ⟨⟩) (by rintro ⟨⟩), ?_⟩
    intro y hy
    rw [journal_after] at hy
    change y ∈ (journal k.trace).rollback.all at hy
    rw [all_rollback] at hy
    exact (ha.1 rfl).2 y hy
  apply keeps_statement
  · exact fun _ _ _ hg hr _ => hg.stable hr
  · exact fun _ _ _ hg hr _ => hg.stable hr
  · exact fun k _ hk t a _ ha => hrol k none hk ha
  · intro k hr hk t x c a hca ha
    rcases hca with ⟨rfl, rfl⟩ | ⟨rfl, rfl⟩
    · refine ⟨inner_step hk ⟨rfl, rfl⟩ trivial ha, ?_⟩
      rcases ha.2 x rfl with hroll | ⟨hemp, _⟩ | ⟨_, _, hrai⟩
      · cases hroll
      · exact Unwritten.gone (Unwritten.after (isEmpty_iff.mp hemp) rfl)
      · rw [(h.stable hr).raised] at hrai
        cases hrai
    · exact hrol k (some x) hk ha

theorem concludes_createUser (handle : String) (pakeRecord : Bytes) (pakeAlgo : String) (claim : Bool) :
    Concludes P db i (createUser P handle pakeRecord pakeAlgo claim : Act Session Bool) := by
  intro m h
  have hthr : ∀ {γ : Type} {B : γ → Moment (Coordinator Session) Event → Prop} (e : Exn)
      (n : Moment (Coordinator Session) Event), Thrown i e n → Keeps (keeping P db) i (post B (Thrown i))
        (.done (.error e) : Coro Turn (Coordinator Session) Event (Except Exn γ)) n :=
    fun _ _ hn _ hr _ => hn.stable hr
  have hwri : ∀ (w : Turn → Write) (n : Moment (Coordinator Session) Event), Held i n →
      Keeps (keeping P db) i (post (fun _ => Held i) (Thrown i)) (execute P w : Act Session Nat).run n := by
    intro w n hn
    apply keeps_tried (executed_inner w) (fun _ _ => Held.stable) hn
    exact fun k t e hk => hk.after (executed_inner w t k.shared e).2
  have hcom : ∀ (n : Moment (Coordinator Session) Event), Held i n →
      Keeps (keeping P db) i (post (fun _ => Done i) (Thrown i)) (commit : Act Session Unit).run n := by
    intro n hn
    apply keeps_tried _ (fun _ _ => Done.stable) hn
    · exact fun _ _ _ hk => hk.committed
    · exact fun _ _ _ => ⟨⟨rfl, rfl⟩, trivial⟩
  have hcla : ∀ (n : Moment (Coordinator Session) Event), Held i n → Keeps (keeping P db) i
      (post (fun _ => Held i) (Thrown i)) (claimBootstrapAgent P handle claim : Act Session Bool).run n := by
    intro n hn
    rw [claimBootstrapAgent]
    split
    · apply (hwri _ n hn).through _ hthr
      exact fun _ _ hk _ hr _ => hk.stable hr
    · exact fun _ hr _ => hn.stable hr
  have htry : Keeps (keeping P db) i (post (fun _ => Done i) (Thrown i)) (do
      let _ ← execute P (fun t => .insertUser ⟨handle, pakeRecord, pakeAlgo, .active, t.now⟩)
      let claimed ← claimBootstrapAgent P handle claim
      commit
      return claimed : Act Session Bool).run m := by
    apply (hwri _ m h.steady.held).through _ hthr
    intro _ n hn
    apply (hcla n hn).through _ hthr
    intro claimed n hn
    apply (hcom n hn).through _ hthr
    exact fun _ _ hk _ hr _ => hk.stable hr
  apply Keeps.catching
  apply htry.mono
  intro r n hn
  cases r with
  | ok claimed => exact keeps_returned hn
  | error e =>
    dsimp only [post]
    split
    · apply (keeps_rollback hn).through _ (fun _ _ => keeps_raised)
      exact fun _ _ => keeps_raised
    · exact keeps_raised (hn.uncaught (by simpa using ‹¬ e.isException = true›))

theorem concludes_run (call : StoreCall) : Concludes P db i (call.run P : Act Session Unit) := by
  cases call with
  | createUser handle pakeRecord pakeAlgo claim => exact concludes_ignored (concludes_createUser _ _ _ _)
  | addDevice _ _ _ | registerAgent _ _ _ _ => exact concludes_write_unit (fun _ => rfl)
  | revokeDevice devicePubkey => exact concludes_ignored (concludes_write (fun _ => rfl) (fun n => decide (0 < n)))
  | consumeInvitation code => exact concludes_ignored (concludes_consumeInvitation _)
  | setUserStatus handle status => exact concludes_ignored (concludes_setUserStatus _ _)
  | deleteUser handle => exact concludes_ignored (concludes_deleteUser _)

theorem keeps_answered {ok : Bool} (hdone : ok = true → Done i m) (hgone : ok = false → Gone i m) :
    Coro.Keeps (keeping P db) i (Coro.post (fun _ _ => True) (fun _ _ => False))
      (mark (.answered ok) : Act Session Time).run m := by
  apply keeps_atomic
  · exact fun _ _ _ _ _ _ => trivial
  · exact fun _ _ _ h _ _ => h
  · intro k hr hk t a _ ha
    refine ⟨keeping_step (P := P) hk ⟨rfl, rfl⟩ ha ?_ ?_, trivial⟩
    · rintro ⟨⟩
      exact (hdone rfl).stable hr
    · rintro ⟨⟩
      exact (hgone rfl).stable hr
  · rintro k _ _ t e ⟨⟩

theorem keeps_finish (call : StoreCall) (h : Unwritten i m) : Coro.Keeps (keeping P db) i (fun _ _ => True)
    (call.finish P : Act Session Unit).run m := by
  apply Keeps.catching
  apply (concludes_run call m h).through
  · intro _ n hn
    apply (keeps_answered (fun _ => hn) (by rintro ⟨⟩)).through _ (fun _ _ => False.elim)
    exact fun _ _ _ _ _ _ _ _ _ => trivial
  intro e n hn k hr _
  apply (keeps_answered (by rintro ⟨⟩) (fun _ => hn.stable hr)).through _ (fun _ _ => False.elim)
  exact fun _ _ _ _ _ _ => trivial

/-- An operation that returns has its writes committed, and one that raises leaves none, where rollbacks and exceptions keep
to the operation that they belong to. -/
theorem acknowledged_writes_kept {calls : Coro.TaskId → StoreCall} {logins : Dict String (LoginInProgress Session)}
    {q : Coro.Pool Turn (Coordinator Session) Event (Except Exn Unit)}
    (h : Runs.ReachesUnder Coro.Pool.next (Coro.Pool.Allowed Sheltered) (calling P calls db logins) q) :
    WritesKept P db q.now.trace := by
  have hnil : ∀ {x : Entry (Coordinator Session) Event} {pre post}, ([] : History Session) ≠ pre ++ x :: post :=
    fun hspl => absurd (append_eq_nil_iff.mp hspl.symm).2 (cons_ne_nil _ _)
  have hsou : Pool.Sound (keeping P db) (calling P calls db logins) := by
    refine ⟨⟨⟨rfl, rfl⟩, ?_, ?_, ?_⟩, fun j => keeps_finish (calls j) rfl⟩
    · exact fun _ _ _ hspl => absurd hspl hnil
    · exact fun _ _ _ hspl => absurd hspl hnil
    · exact fun _ _ _ hspl => absurd hspl hnil
  exact (hsou.reaches h).1.2

end Calls

section Run

def twoCalls (i : Coro.TaskId) : StoreCall :=
  if i = 0 then .addDevice [7] "alice" .null else .createUser "alice" [] "srp6a" false

def onlyAlice : Db where
  coordinatorNodeId := none
  users := Dict.empty.set "alice" ⟨"alice", [1], "srp6a", .active, 0⟩
  devices := Dict.empty
  agents := Dict.empty
  invitations := Dict.empty

def bothCalls : Coro.Pool Turn (Coordinator Bytes) Event (Except Exn Unit) :=
  calling ⟨Py.lower, true, fun _ _ => false⟩ twoCalls onlyAlice Dict.empty

def inTurn : List (Coro.TaskId × Turn) := List.replicate 3 (0, { now := 1 }) ++ List.replicate 3 (1, { now := 2 })

def between : List (Coro.TaskId × Turn) :=
  [(0, { now := 1 }), (1, { now := 2 }), (1, { now := 2 }), (0, { now := 3 }), (0, { now := 3 })]

theorem device_kept_in_turn : ∃ q, Runs.run Coro.Pool.next bothCalls inTurn = some q ∧
    WritesKept ⟨Py.lower, true, fun _ _ => false⟩ onlyAlice q.now.trace := by
  have hrun : (Runs.run Pool.next bothCalls inTurn).isSome := by decide
  obtain ⟨q, hq⟩ := Option.isSome_iff_exists.mp hrun
  exact ⟨q, hq, acknowledged_writes_kept (Runs.reachesUnder_of_all (by decide) hq)⟩

def lastReturnsBare (log : History Session) : Bool :=
  match log.reverse with
  | x :: rest => x.event.action.returns && !(writesOf x.task rest.reverse).isEmpty &&
      (journal rest.reverse).saved.isEmpty
  | [] => false

theorem not_writesKept {P : Platform} {db : Db} {log : History Session} (h : lastReturnsBare log = true) :
    ¬ WritesKept P db log := by
  intro hkept
  rw [lastReturnsBare] at h
  cases hlog : log.reverse with
  | nil =>
    rw [hlog] at h
    cases h
  | cons x rest =>
    rw [hlog] at h
    obtain ⟨hx, hbare⟩ := Bool.and_eq_true_iff.mp h
    obtain ⟨hret, hwri⟩ := Bool.and_eq_true_iff.mp hx
    have hspl : log = rest.reverse ++ x :: [] := reverse_eq_cons_iff.mp hlog
    have hne : writesOf x.task rest.reverse ≠ [] := by simpa using hwri
    obtain ⟨w, hw⟩ := exists_mem_of_ne_nil _ hne
    have hsav := hkept.returned _ x [] hspl (Action.returns_iff.mp hret) w hw
    rw [isEmpty_iff.mp hbare] at hsav
    cases hsav

theorem device_lost_between : ∃ q, Runs.run Coro.Pool.next bothCalls between = some q ∧
    ¬ WritesKept ⟨Py.lower, true, fun _ _ => false⟩ onlyAlice q.now.trace := by
  have hrun : (Runs.run Pool.next bothCalls between).map (fun q => lastReturnsBare q.now.trace) = some true := by
    decide
  obtain ⟨q, hq, hbare⟩ := Option.map_eq_some_iff.mp hrun
  exact ⟨q, hq, not_writesKept hbare⟩

end Run

end OpenAgent.Identity
