import OpenAgent.McpApps.HostLaws

namespace OpenAgent.McpApps.Host

open Py Laws List Service Open Dict Act

def Act.closes (n : Nat) : Act → Bool
  | .closed m => m = n
  | _ => false

/-- The session that a call of `open` must close, or place. -/
def Open.held (call : Open) : Option Nat := if call.cleaned then none else call.session.map Session.n

def Open.holds (call : Open) (n : Nat) : Nat := if call.held = some n then 1 else 0

def View.keeps (view : View) (n : Nat) : Nat := if view.listed && view.session.n = n then 1 else 0

def View.counts (view : View) : Nat := if view.listed then 1 else 0

/-- `currentOwner` is awaited for the first time. -/
def Open.early (call : Open) : Bool :=
  match call.stage with
  | .owner => true
  | _ => false

/-- `openSession` has not returned yet. -/
def Open.opening (call : Open) : Bool :=
  match call.work with
  | .queued | .session => true
  | _ => false

structure Open.Ok (closed : Bool) (call : Open) : Prop where
  done : call.done = true → call.held = none ∧ (call.aborted = true ∨ closed = true)
  cleaned : call.cleaned = true → call.session.isSome = true ∧ (call.aborted = true ∨ closed = true)
  outcome : call.outcome.isSome = true → call.idle = true
  early : call.early = true → call.opening = false ∧ call.session = none
  opening : call.opening = true → call.session = none

def Service.account (s : Service) (n : Nat) : Nat :=
  s.trace.countP (Act.closes n) + s.retiring.count n + s.opens.sumBy (fun _ call => call.holds n) +
    s.views.sumBy fun _ view => view.keeps n

structure Custody (o : Options) (s : Service) : Prop where
  account : ∀ n, s.account n = if n < s.sessions then 1 else 0
  room : s.views.sumBy (fun _ view => view.counts) + s.opens.size ≤ o.maxViews
  fresh : ∀ k, s.openCount ≤ k → s.opens.get? k = none
  calls : ∀ k call, s.opens.get? k = some call → call.Ok s.closed

theorem countP_closes {trace acts : List Act} (h : ∀ a ∈ acts, ∀ n, a.closes n = false) (n : Nat) :
    (trace ++ acts).countP (Act.closes n) = trace.countP (Act.closes n) := by
  have hzero : acts.countP (closes n) = 0 := countP_eq_zero.mpr fun a ha => by simp [h a ha n]
  rw [countP_append, hzero, Nat.add_zero]

variable {call : Open}

theorem Open.Ok.mono {closed later : Bool} (h : call.Ok closed) (hc : closed = true → later = true) : call.Ok later :=
  ⟨fun hd => ⟨(h.done hd).1, (h.done hd).2.imp id hc⟩, fun hd => ⟨(h.cleaned hd).1, (h.cleaned hd).2.imp id hc⟩,
    h.outcome, h.early, h.opening⟩
variable {call' : Open} {k : Nat}

namespace Custody

variable {o : Options} {s t : Service}

theorem frame (h : Custody o s) {acts : List Act} (htra : t.trace = s.trace ++ acts)
    (hacts : ∀ a ∈ acts, ∀ n, a.closes n = false) (hope : t.opens = s.opens) (hcou : t.openCount = s.openCount)
    (hvie : ∀ f : View → Nat, (∀ view view' : View, view.listed = view'.listed → view.session = view'.session →
      f view = f view') → t.views.sumBy (fun _ view => f view) = s.views.sumBy fun _ view => f view)
    (hret : t.retiring = s.retiring) (hses : t.sessions = s.sessions)
    (hclo : s.closed = true → t.closed = true) : Custody o t := by
  refine ⟨fun n => ?_, ?_, ?_, ?_⟩
  · have hkee := hvie (fun view => view.keeps n) fun view view' hl hs => by simp [View.keeps, hl, hs]
    rw [Service.account, htra, countP_closes hacts, hret, hope, hkee, hses]
    exact h.account n
  · have hroom := hvie View.counts fun view view' hl _ => by simp [View.counts, hl]
    rw [hroom, hope]
    exact h.room
  · rw [hope, hcou]
    exact h.fresh
  · intro k call hk
    rw [hope] at hk
    exact (h.calls k call hk).mono hclo

theorem sumBy_setView {v : Nat} {view view' : View} (hv : s.views.get? v = some view) (hlis : view'.listed = view.listed)
    (hses : view'.session = view.session) (f : View → Nat)
    (hf : ∀ view view' : View, view.listed = view'.listed → view.session = view'.session → f view = f view') :
    (s.views.set v view').sumBy (fun _ view => f view) = s.views.sumBy fun _ view => f view := by
  rw [sumBy_set, sumBy_erase s.views _ hv, hf view' view hlis hses]

theorem setView (h : Custody o s) {v : Nat} {view view' : View} (hv : s.views.get? v = some view)
    (hlis : view'.listed = view.listed) (hses : view'.session = view.session) :
    Custody o (s.setView v view') :=
  h.frame (t := s.setView v view') (append_nil _).symm (fun _ ha => by cases ha) rfl rfl
    (fun f hf => sumBy_setView hv hlis hses f hf) rfl rfl id

theorem act (h : Custody o s) {a : Act} (ha : ∀ n, a.closes n = false) : Custody o (s.act a) := by
  refine h.frame (t := s.act a) rfl (fun b hb => ?_) rfl rfl (fun _ _ => rfl) rfl rfl id
  rw [mem_singleton.mp hb]
  exact ha

theorem setStage (h : Custody o s) (r : Nat) (handler : Handler) (stage : Stage) :
    Custody o (s.setStage r handler stage) :=
  h.frame (t := s.setStage r handler stage) (append_nil _).symm (fun _ ha => by cases ha) rfl rfl
    (fun _ _ => rfl) rfl rfl id

theorem retire (h : Custody o s) (v : Nat) : Custody o (s.retire v) := by
  unfold Service.retire
  rcases hv : s.views.get? v with _ | view
  · exact h
  dsimp only
  by_cases hlis : view.listed = true
  · rw [if_pos hlis]
    have hvie : ∀ f : View → Nat, (s.views.set v view.unlist).sumBy (fun _ view => f view) + f view =
        s.views.sumBy (fun _ view => f view) + f view.unlist := by
      intro f
      rw [sumBy_set, sumBy_erase s.views _ hv]
      omega
    refine ⟨fun n => ?_, ?_, h.fresh, h.calls⟩
    · have hacc := h.account n
      have hkee := hvie fun view => view.keeps n
      have hnone : view.unlist.keeps n = 0 := rfl
      have hone : view.keeps n = [view.session.n].count n := by
        simp [View.keeps, hlis, count_singleton]
      have hclo : (s.trace ++ [retired v]).countP (closes n) = s.trace.countP (closes n) :=
        countP_closes (fun a ha _ => by rw [mem_singleton.mp ha]; rfl) n
      rw [Service.account] at hacc
      show (s.trace ++ [retired v]).countP (closes n) + (s.retiring ++ [view.session.n]).count n +
        s.opens.sumBy (fun _ call => call.holds n) + (s.views.set v view.unlist).sumBy (fun _ view => view.keeps n) =
          if n < s.sessions then 1 else 0
      rw [hclo, count_append]
      omega
    have hroom := h.room
    have hcou := hvie View.counts
    have hnone : view.unlist.counts = 0 := rfl
    show (s.views.set v view.unlist).sumBy (fun _ view => view.counts) + s.opens.size ≤ o.maxViews
    omega
  · rw [if_neg hlis]
    exact h

theorem retireAll (h : Custody o s) (vs : List Nat) : Custody o (s.retireAll vs) := by
  induction vs generalizing s with
  | nil => exact h
  | cons v vs ih => exact ih (h.retire v)

theorem closes (h : Custody o s) {n : Nat} (ht : s.closes n = some t) : Custody o t ∧ .closed n ∉ s.trace := by
  unfold Service.closes at ht
  by_cases hn : s.retiring.contains n = true
  · rw [if_pos hn, Option.some.injEq] at ht
    subst ht
    have hmem : n ∈ s.retiring := contains_iff_mem.mp hn
    have hpos : 0 < s.retiring.count n := count_pos_iff.mpr hmem
    refine ⟨⟨fun m => ?_, h.room, h.fresh, h.calls⟩, fun hc => ?_⟩
    · have hacc := h.account m
      rw [Service.account] at hacc
      show (s.trace ++ [closed n]).countP (closes m) + (s.retiring.erase n).count m +
        s.opens.sumBy (fun _ call => call.holds m) + s.views.sumBy (fun _ view => view.keeps m) =
          if m < s.sessions then 1 else 0
      rw [countP_append, count_erase]
      by_cases hnm : n = m
      · subst hnm
        have hone : [Act.closed n].countP (Act.closes n) = 1 := by simp [Act.closes]
        simp only [beq_self_eq_true, if_true]
        omega
      have hzero : [Act.closed n].countP (Act.closes m) = 0 := by simp [Act.closes, hnm]
      have hbeq : (n == m) = false := by simpa using hnm
      rw [hzero, hbeq]
      simpa using hacc
    have hacc := h.account n
    have hcou : 0 < s.trace.countP (Act.closes n) :=
      countP_pos_iff.mpr ⟨_, hc, by simp [Act.closes]⟩
    rw [Service.account] at hacc
    split at hacc
    · omega
    · omega
  · rw [if_neg hn] at ht
    cases ht

theorem put (h : Custody o s) (hk : s.opens.get? k = some call)
    (hope : t.opens = s.opens.set k call') (hclo : t.closed = s.closed) (htra : t.trace = s.trace)
    (hvie : t.views = s.views) (hcou : t.openCount = s.openCount) (hok : call'.Ok s.closed)
    (hbal : ∀ n, t.retiring.count n + call'.holds n + (if n < s.sessions then 1 else 0) =
      s.retiring.count n + call.holds n + if n < t.sessions then 1 else 0) : Custody o t := by
  have hsum : ∀ f : Open → Nat, t.opens.sumBy (fun _ call => f call) + f call =
      s.opens.sumBy (fun _ call => f call) + f call' := by
    intro f
    rw [hope, sumBy_set, sumBy_erase s.opens _ hk]
    omega
  refine ⟨fun n => ?_, ?_, ?_, ?_⟩
  · have hacc := h.account n
    have hhol := hsum fun call => call.holds n
    have hb := hbal n
    rw [Service.account] at hacc ⊢
    rw [htra, hvie]
    omega
  · have hroom := h.room
    have hsize := hsum fun _ => 1
    rw [size_eq_sumBy] at hroom ⊢
    rw [hvie]
    omega
  · intro j hj
    rw [hcou] at hj
    have hnone := h.fresh j hj
    rw [hope, get?_set_of_ne]
    · exact hnone
    intro hjk
    rw [hjk, hk] at hnone
    cases hnone
  · intro j other hj
    rw [hclo]
    rw [hope, get?_set] at hj
    split at hj
    · rw [Option.some.injEq] at hj
      rw [← hj]
      exact hok
    · exact h.calls j other hj

theorem drop (h : Custody o s) (hk : s.opens.get? k = some call)
    (hope : t.opens = s.opens.erase k) (hclo : t.closed = s.closed)
    (htra : ∀ n, t.trace.countP (Act.closes n) = s.trace.countP (Act.closes n))
    (hcou : t.openCount = s.openCount) (hses : t.sessions = s.sessions)
    (hroom : t.views.sumBy (fun _ view => view.counts) ≤ s.views.sumBy (fun _ view => view.counts) + 1)
    (hbal : ∀ n, t.retiring.count n + t.views.sumBy (fun _ view => view.keeps n) =
      s.retiring.count n + s.views.sumBy (fun _ view => view.keeps n) + call.holds n) : Custody o t := by
  have hsum : ∀ f : Open → Nat, s.opens.sumBy (fun _ call => f call) = f call + t.opens.sumBy fun _ call => f call := by
    intro f
    rw [hope]
    exact sumBy_erase s.opens _ hk
  refine ⟨fun n => ?_, ?_, ?_, ?_⟩
  · have hacc := h.account n
    have hhol := hsum fun call => call.holds n
    have hb := hbal n
    rw [Service.account] at hacc ⊢
    rw [htra, hses]
    omega
  · have hr := h.room
    have hsize := hsum fun _ => 1
    rw [size_eq_sumBy] at hr ⊢
    omega
  · intro j hj
    rw [hcou] at hj
    rw [hope, get?_erase, h.fresh j hj]
    split <;> rfl
  · intro j other hj
    rw [hclo]
    rw [hope, get?_erase] at hj
    split at hj
    · cases hj
    · exact h.calls j other hj

end Custody

theorem Open.holds_of_held (h : call'.held = call.held) (n : Nat) : call'.holds n = call.holds n := by
  simp [holds, h]

theorem Open.holds_of_none (h : call.held = none) (n : Nat) : call.holds n = 0 := by
  simp [holds, h]

theorem Open.holds_of_some {m : Nat} (h : call.held = some m) (n : Nat) : call.holds n = [m].count n := by
  by_cases hn : m = n
  · simp [holds, h, hn]
  · simp [holds, h, hn]

theorem cleanup_retiring (s : Service) (call : Open) (n : Nat) :
    (s.cleanup call).retiring.count n = s.retiring.count n + call.holds n := by
  unfold cleanup
  rcases hses : call.session with _ | session
  · rw [holds_of_none (by simp [held, hses])]
    rfl
  cases hcle : call.cleaned with
  | true =>
    rw [holds_of_none (by simp [held, hcle])]
    rfl
  | false =>
    rw [holds_of_some (m := session.n) (by simp [held, hcle, hses])]
    exact count_append

theorem cleanup_eq (s : Service) (call : Open) : ∃ retiring, s.cleanup call = { s with retiring := retiring } := by
  unfold cleanup
  split
  · exact ⟨_, rfl⟩
  · exact ⟨_, rfl⟩

namespace Custody

variable {o : Options} {s t : Service}

variable (h : Custody o s)

include h

theorem release (hk : s.opens.get? k = some call) {retiring : List Nat}
    (hok : call'.idle = false → call'.Ok s.closed) (hdone : call'.done = true → call'.held = none)
    (hlive : call'.done = false → call'.Ok s.closed)
    (hbal : ∀ n, retiring.count n + call'.holds n = s.retiring.count n + call.holds n) :
    Custody o ({ s with retiring := retiring }.release k call') := by
  unfold Service.release
  by_cases hd : (call'.done && call'.idle) = true
  · rw [if_pos hd]
    rw [Bool.and_eq_true] at hd
    refine h.drop hk rfl rfl (fun _ => rfl) rfl rfl (Nat.le_succ _) fun n => ?_
    have hb := hbal n
    rw [holds_of_none (hdone hd.1)] at hb
    show retiring.count n + s.views.sumBy (fun _ view => view.keeps n) = _
    omega
  rw [if_neg hd]
  have hok' : call'.Ok s.closed := by
    cases hidle : call'.idle with
    | false => exact hok hidle
    | true =>
      refine hlive ?_
      rw [hidle, Bool.and_true] at hd
      simpa using hd
  refine h.put hk rfl rfl rfl rfl rfl hok' fun n => ?_
  have hb := hbal n
  show retiring.count n + call'.holds n + (if n < s.sessions then 1 else 0) =
    s.retiring.count n + call.holds n + if n < s.sessions then 1 else 0
  omega

theorem fails (hk : s.opens.get? k = some call)
    (hend : call.idle = true ∨ call.aborted = true ∨ s.closed = true) : Custody o (s.fails k call) := by
  have hcall := h.calls k call hk
  unfold Service.fails
  obtain ⟨retiring, heq⟩ := cleanup_eq s call
  have hcou : ∀ n, retiring.count n = s.retiring.count n + call.holds n := by
    intro n
    rw [← cleanup_retiring s call n, heq]
  rw [heq]
  have hheld : ({ call with
      stage := .ended false, cleaned := call.cleaned || call.session.isSome } : Open).held =
        none := by
    unfold held
    cases call.session with
    | none => simp
    | some session => simp
  refine h.release hk (fun hidle => ?_) (fun _ => hheld) (fun hd => by cases hd) fun n => ?_
  · have hidle' : call.idle = false := hidle
    have hor : call.aborted = true ∨ s.closed = true := by
      rcases hend with hi | hor
      · rw [hi] at hidle'
        cases hidle'
      · exact hor
    refine ⟨fun _ => ⟨hheld, hor⟩, fun hc => ⟨?_, hor⟩, hcall.outcome, fun he => (by cases he), hcall.opening⟩
    rcases Bool.or_eq_true_iff.mp hc with hc | hc
    · exact (hcall.cleaned hc).1
    · exact hc
  have hc := hcou n
  rw [holds_of_none hheld]
  omega

theorem setOpen (hk : s.opens.get? k = some call)
    (hok : call'.Ok s.closed) (hheld : call'.held = call.held) : Custody o (s.setOpen k call') := by
  refine h.put hk rfl rfl rfl rfl rfl hok fun n => ?_
  rw [holds_of_held hheld]
  rfl

theorem ownerAnswers {answer : Option Owner} (ht : s.ownerAnswers k answer = some t) : Custody o t := by
  unfold Service.ownerAnswers at ht
  split at ht
  swap
  · cases ht
  rename_i call hk
  rcases hwork : call.work with _ | _ | _ | _ | _
  all_goals rw [hwork] at ht
  all_goals cases ht
  have hcall := h.calls k call hk
  refine h.setOpen hk ⟨hcall.done, hcall.cleaned, fun ho => ?_, fun he => ⟨rfl, (hcall.early he).2⟩,
    fun hc => (by cases hc)⟩ rfl
  have hidle := hcall.outcome ho
  unfold idle at hidle
  rw [hwork] at hidle
  cases hidle

theorem callsOpen (ht : s.callsOpen k = some t) : Custody o t := by
  unfold Service.callsOpen at ht
  split at ht
  swap
  · cases ht
  rename_i call hk
  rcases hwork : call.work with _ | _ | _ | _ | _
  all_goals rw [hwork] at ht
  all_goals cases ht
  have hcall := h.calls k call hk
  have hope : call.opening = true := by simp [Open.opening, hwork]
  refine h.setOpen hk ⟨hcall.done, hcall.cleaned, fun ho => ?_, fun he => ?_, fun _ => hcall.opening hope⟩ rfl
  · have hidle := hcall.outcome ho
    unfold idle at hidle
    rw [hwork] at hidle
    cases hidle
  have hear := (hcall.early he).1
  rw [hope] at hear
  cases hear

theorem receives (hk : s.opens.get? k = some call) (hwork : call.work = .session) (value : Option Json) :
    Custody o (({ s with sessions := s.sessions + value.toList.length }).receives k
      { call with session := value.map fun value => ⟨s.sessions, value⟩ }) := by
  have hcall := h.calls k call hk
  have hope : call.opening = true := by simp [Open.opening, hwork]
  have hnone := hcall.opening hope
  have hcle : call.cleaned = false := by
    cases hc : call.cleaned with
    | false => rfl
    | true =>
      have hs := (hcall.cleaned hc).1
      rw [hnone] at hs
      cases hs
  have hlate : call.early = false := by
    cases he : call.early with
    | false => rfl
    | true =>
      have hear := (hcall.early he).1
      rw [hope] at hear
      cases hear
  have hpen : call.outcome.isSome = true → False := by
    intro ho
    have hidle := hcall.outcome ho
    unfold idle at hidle
    rw [hwork] at hidle
    cases hidle
  have hheld : call.held = none := by simp [held, hnone]
  -- the session that has come is the last that is counted
  have hlast : ∀ n, (if n < s.sessions then 1 else 0) + (value.toList.map fun _ => s.sessions).count n =
      if n < s.sessions + value.toList.length then 1 else 0 := by
    intro n
    cases value with
    | none => simp
    | some value =>
      by_cases hn : n = s.sessions
      · simp [hn]
      · have hiff : n < s.sessions + 1 ↔ n < s.sessions := by omega
        simp [Ne.symm hn, hiff]
  have hnew : ∀ n, ({ call with session := value.map fun value => ⟨s.sessions, value⟩ } : Open).holds n =
      (value.toList.map fun _ => s.sessions).count n := by
    intro n
    cases value with
    | none => exact holds_of_none (by simp [held]) n
    | some value => exact holds_of_some (m := s.sessions) (by simp [held, hcle]) n
  unfold Service.receives
  by_cases hgone : (call.aborted || s.closed) = true
  · rw [if_pos hgone]
    rw [Bool.or_eq_true] at hgone
    obtain ⟨retiring, heq⟩ := cleanup_eq { s with sessions := s.sessions + value.toList.length }
      { call with session := value.map fun value => ⟨s.sessions, value⟩ }
    have hcou := fun n => cleanup_retiring { s with sessions := s.sessions + value.toList.length }
      { call with session := value.map fun value => ⟨s.sessions, value⟩ } n
    rw [heq] at hcou ⊢
    have hnone' : ({ call with
        session := value.map fun value => (⟨s.sessions, value⟩ : Session)
        work := .settling .fails
        cleaned := call.cleaned || (value.map fun value => (⟨s.sessions, value⟩ : Session)).isSome } : Open).held =
        none := by
      cases value with
      | none | some _ => simp [held]
    refine h.put hk rfl rfl rfl rfl rfl ⟨fun _ => ⟨hnone', hgone⟩, fun hc => ⟨?_, hgone⟩, fun ho => (hpen ho).elim,
      fun he => absurd (hlate.symm.trans he) (by decide), fun hc => (by cases hc)⟩ fun n => ?_
    · rcases Bool.or_eq_true_iff.mp hc with hc | hc
      · rw [hcle] at hc
        cases hc
      · exact hc
    have hc : retiring.count n = s.retiring.count n + _ := (hcou n).trans (congrArg _ (hnew n))
    have hl := hlast n
    rw [holds_of_none hnone', holds_of_none hheld]
    show retiring.count n + 0 + (if n < s.sessions then 1 else 0) =
      s.retiring.count n + 0 + if n < s.sessions + value.toList.length then 1 else 0
    omega
  · rw [if_neg hgone]
    rw [Bool.or_eq_true] at hgone
    refine h.put hk rfl rfl rfl rfl rfl ⟨fun hd => absurd (hcall.done hd).2 hgone, fun hc => ?_,
      fun ho => (hpen ho).elim, fun he => absurd (hlate.symm.trans he) (by decide), fun hc => (by cases hc)⟩
      fun n => ?_
    · exact absurd (hcle.symm.trans hc) (by decide)
    have hl := hlast n
    have hn := hnew n
    have hhol : ({ call with
        session := value.map fun value => (⟨s.sessions, value⟩ : Session)
        work := .settling .opened } : Open).holds n = _ := hn
    rw [hhol, holds_of_none hheld]
    show s.retiring.count n + _ + (if n < s.sessions then 1 else 0) =
      s.retiring.count n + 0 + if n < s.sessions + value.toList.length then 1 else 0
    omega

theorem sessionAnswers {answer : Option Json} (ht : s.sessionAnswers k answer = some t) : Custody o t := by
  unfold Service.sessionAnswers at ht
  split at ht
  swap
  · cases ht
  rename_i call hk
  rcases hwork : call.work with _ | _ | _ | _ | _
  all_goals rw [hwork] at ht
  all_goals try cases ht
  have hcall := h.calls k call hk
  have hope : call.opening = true := by simp [Open.opening, hwork]
  cases answer with
  | none =>
    cases ht
    refine h.setOpen hk ⟨hcall.done, hcall.cleaned, fun ho => ?_, fun he => ?_, fun hc => (by cases hc)⟩ rfl
    · have hidle := hcall.outcome ho
      unfold idle at hidle
      rw [hwork] at hidle
      cases hidle
    have hear := (hcall.early he).1
    rw [hope] at hear
    cases hear
  | some value =>
    dsimp only at ht
    split at ht
    · rw [Option.some.injEq] at ht
      rw [← ht]
      exact h.receives hk hwork (some value)
    rw [Option.some.injEq] at ht
    rw [← ht]
    have hsame : call = { call with session := none } := by
      rw [← hcall.opening hope]
    rw [hsame]
    exact h.receives hk hwork none

theorem untracks (ht : s.untracks k = some t) : Custody o t := by
  unfold Service.untracks at ht
  split at ht
  swap
  · cases ht
  rename_i call hk
  rcases hwork : call.work with _ | _ | _ | _ | outcome
  all_goals rw [hwork] at ht
  all_goals cases ht
  have hcall := h.calls k call hk
  have hok : ({ call with work := .idle, outcome := some outcome } : Open).Ok s.closed :=
    ⟨hcall.done, hcall.cleaned, fun _ => rfl, fun he => ⟨rfl, (hcall.early he).2⟩, fun hc => (by cases hc)⟩
  exact h.release hk (fun _ => hok) (fun hd => (hcall.done hd).1) (fun _ => hok) fun _ => rfl

theorem place (hk : s.opens.get? k = some call) (owner : Owner)
    (hidle : call.idle = true) (hcle : call.cleaned = false) (hnew : s.views.get? s.viewCount = none) :
    Custody o (s.place o k call owner) := by
  unfold Service.place
  rcases hview : call.session.bind (s.newView o owner call.reference) with _ | view
  · exact h.fails hk (.inl hidle)
  obtain ⟨session, hses, hnewV⟩ := Option.bind_eq_some_iff.mp hview
  have hkept : view.session = session ∧ view.listed = true := by
    unfold newView at hnewV
    split at hnewV
    · split at hnewV
      · split at hnewV
        · cases hnewV
          exact ⟨rfl, rfl⟩
        · cases hnewV
      · cases hnewV
    · cases hnewV
  dsimp only
  unfold Service.release
  rw [if_pos (show (({ call with stage := .ended true } : Open).done && ({ call with stage := .ended true } : Open).idle) =
    true from hidle)]
  have hsum : ∀ f : View → Nat, (s.views.set s.viewCount view).sumBy (fun _ view => f view) =
      s.views.sumBy (fun _ view => f view) + f view := by
    intro f
    rw [sumBy_set, erase_of_get?_none _ hnew]
    exact Nat.add_comm _ _
  refine h.drop hk rfl rfl (fun n => ?_) rfl rfl ?_ fun n => ?_
  · exact countP_closes (fun a ha _ => by rw [mem_singleton.mp ha]; rfl) n
  · have hcou := hsum View.counts
    have hone : view.counts = 1 := by simp [View.counts, hkept.2]
    show (s.views.set s.viewCount view).sumBy (fun _ view => view.counts) ≤ _
    omega
  have hkee := hsum fun view => view.keeps n
  have hheld : call.held = some session.n := by simp [held, hcle, hses]
  have hone : view.keeps n = [session.n].count n := by
    simp [View.keeps, hkept.1, hkept.2, count_singleton]
  show s.retiring.count n + (s.views.set s.viewCount view).sumBy (fun _ view => view.keeps n) = _
  rw [holds_of_some hheld]
  omega

theorem continues (hnew : s.views.get? s.viewCount = none) (ht : s.continues o k = some t) : Custody o t := by
  unfold Service.continues at ht
  split at ht
  swap
  · cases ht
  rename_i call hk
  have hcall := h.calls k call hk
  by_cases hwait : (call.done || !call.aborted && call.outcome.isNone) = true
  · rw [if_pos hwait] at ht
    cases ht
  rw [if_neg hwait] at ht
  by_cases hgone : (call.aborted || s.closed) = true
  · rw [if_pos hgone, Option.some.injEq] at ht
    rw [← ht]
    exact h.fails hk (.inr (by simpa using hgone))
  rw [if_neg hgone] at ht
  simp only [Bool.or_eq_true, Bool.and_eq_true, Bool.not_eq_true', not_or, not_and, Bool.not_eq_true] at hwait hgone
  obtain ⟨hdone, hwait⟩ := hwait
  obtain ⟨habo, hopen⟩ := hgone
  have hset : call.outcome.isSome = true := by
    have hnone := hwait habo
    rwa [← Option.not_isSome, Bool.not_eq_false'] at hnone
  have hidle := hcall.outcome hset
  have hcle : call.cleaned = false := by
    cases hc : call.cleaned with
    | false => rfl
    | true =>
      rcases (hcall.cleaned hc).2 with ha | ha
      · rw [habo] at ha
        cases ha
      · rw [hopen] at ha
        cases ha
  have hfai : Custody o (s.fails k call) := h.fails hk (.inl hidle)
  have hok : ∀ stage work, (∀ placed, stage ≠ .ended placed) → stage ≠ .owner →
      (({ call with stage := stage, work := work, outcome := none } : Open).opening = true → call.session = none) →
      Custody o (s.setOpen k { call with stage := stage, work := work, outcome := none }) := by
    intro stage work hlive hlate hope
    refine h.setOpen hk ⟨fun hd => ?_, hcall.cleaned, fun ho => (by cases ho), fun he => ?_, hope⟩ rfl
    · cases stage with
      | ended placed => exact absurd rfl (hlive placed)
      | owner | session | current => cases hd
    cases stage with
    | owner => exact absurd rfl hlate
    | ended | session | current => cases he
  split at ht
  · rename_i owner hstage _
    split at ht
    · cases ht
      refine hok _ _ (fun _ hc => by cases hc) (fun hc => by cases hc) fun _ => (hcall.early ?_).2
      simp [early, hstage]
    · cases ht
      exact hfai
  · cases ht
    exact hok _ _ (fun _ hc => by cases hc) (fun hc => by cases hc) fun hc => by cases hc
  · split at ht
    · cases ht
      exact h.place hk _ hidle hcle hnew
    · cases ht
      exact hfai
  · cases ht
    exact hfai

theorem abortOpens (predicate : Json → Bool) : Custody o (s.abortOpens predicate) := by
  have hget : ∀ k, (s.abortOpens predicate).opens.get? k = (s.opens.get? k).map fun call =>
      if predicate call.reference then { call with aborted := true } else call :=
    fun k => get?_mapEntries _ _ _
  have hsum : ∀ f : Open → Nat, (∀ call : Open, f { call with aborted := true } = f call) →
      (s.abortOpens predicate).opens.sumBy (fun _ call => f call) = s.opens.sumBy fun _ call => f call := by
    intro f hf
    show ((s.opens.mapEntries _).entries.map _).sum = _
    unfold mapEntries
    rw [map_map]
    congr 1
    refine map_congr_left fun e _ => ?_
    show f (if predicate e.2.reference then { e.2 with aborted := true } else e.2) = f e.2
    split
    · exact hf _
    · rfl
  refine ⟨fun n => ?_, ?_, ?_, ?_⟩
  · have hhol := hsum (fun call => call.holds n) fun _ => rfl
    have hacc := h.account n
    rw [Service.account] at hacc ⊢
    rw [hhol]
    exact hacc
  · have hsize := hsum (fun _ => 1) fun _ => rfl
    have hroom := h.room
    rw [size_eq_sumBy] at hroom ⊢
    rw [hsize]
    exact hroom
  · intro k hk
    rw [hget, h.fresh k hk]
    rfl
  · intro k call hk
    rw [hget] at hk
    obtain ⟨old, hold, rfl⟩ := Option.map_eq_some_iff.mp hk
    have hcall := h.calls k old hold
    split
    · exact ⟨fun hd => ⟨(hcall.done hd).1, .inl rfl⟩, fun hc => ⟨(hcall.cleaned hc).1, .inl rfl⟩, hcall.outcome,
        hcall.early, hcall.opening⟩
    · exact hcall

theorem revokeViews (predicate : Json → Bool) : Custody o (s.revokeViews predicate) :=
  (h.abortOpens predicate).retireAll _

end Custody

theorem listed_length (s : Service) : s.listed.length = s.views.sumBy fun _ view => view.counts := by
  unfold listed sumBy
  rw [length_map]
  induction s.views.entries with
  | nil => rfl
  | cons e l ih =>
    rw [map_cons, sum_cons, ← ih]
    cases hlis : e.2.listed with
    | true =>
      have hcou : e.2.counts = 1 := by simp [View.counts, hlis]
      simp only [filter_cons, hlis, if_true, length_cons, hcou]
      omega
    | false =>
      have hcou : e.2.counts = 0 := by simp [View.counts, hlis]
      simp only [filter_cons, hlis, Bool.false_eq_true, if_false, hcou, Nat.zero_add]

theorem Custody.opening {o : Options} {s : Service} (h : Custody o s) (reference : Json) :
    Custody o (s.opening o reference) := by
  unfold Service.opening
  have hret := h.retireAll ((s.views.entries.filter fun e => e.2.listed && decide (e.2.expires ≤ s.now)).map Prod.fst)
  generalize s.retireAll _ = t at *
  by_cases hfull : (t.closed || decide (o.maxViews ≤ t.listed.length + t.opens.size)) = true
  · rw [if_pos hfull]
    exact hret
  rw [if_neg hfull]
  have hroom : t.listed.length + t.opens.size < o.maxViews := by
    simp only [Bool.or_eq_true, decide_eq_true_eq, not_or, not_le] at hfull
    exact hfull.2
  have hnone := hret.fresh t.openCount le_rfl
  have hsum : ∀ f : Open → Nat, (t.opens.set t.openCount { reference := reference }).sumBy (fun _ call => f call) =
      f { reference := reference } + t.opens.sumBy fun _ call => f call := by
    intro f
    rw [sumBy_set, erase_of_get?_none _ hnone]
  refine ⟨fun n => ?_, ?_, ?_, ?_⟩
  · have hacc := hret.account n
    have hhol := hsum fun call => call.holds n
    have hzero : ({ reference := reference } : Open).holds n = 0 := rfl
    rw [Service.account] at hacc ⊢
    show t.trace.countP (Act.closes n) + t.retiring.count n +
      (t.opens.set t.openCount { reference := reference }).sumBy (fun _ call => call.holds n) +
        t.views.sumBy (fun _ view => view.keeps n) = if n < t.sessions then 1 else 0
    omega
  · have hsize := hsum fun _ => 1
    rw [listed_length, size_eq_sumBy] at hroom
    rw [size_eq_sumBy]
    show t.views.sumBy (fun _ view => view.counts) +
      (t.opens.set t.openCount { reference := reference }).sumBy (fun _ _ => 1) ≤ o.maxViews
    omega
  · intro k hk
    have hk' : t.openCount + 1 ≤ k := hk
    show (t.opens.set t.openCount { reference := reference }).get? k = none
    rw [get?_set_of_ne _ _ (by omega)]
    exact hret.fresh k (by omega)
  · intro k call hk
    have hget : (t.opens.set t.openCount { reference := reference }).get? k = some call := hk
    rw [get?_set] at hget
    split at hget
    · rw [Option.some.injEq] at hget
      rw [← hget]
      exact ⟨fun hd => (by cases hd), fun hc => (by cases hc), fun ho => (by cases ho), fun _ => ⟨rfl, rfl⟩,
        fun _ => rfl⟩
    · exact hret.calls k call hget

end OpenAgent.McpApps.Host
