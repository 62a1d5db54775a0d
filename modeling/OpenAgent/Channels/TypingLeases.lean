import OpenAgent.Channels.Contracts
import OpenAgent.Lib.Dict
import OpenAgent.Lib.Runs

namespace OpenAgent.Channels

open Option

open Py (Dict)

abbrev LeaseKey := String × String × String × String
abbrev LeaseRoute := String × String × Option String

def BridgeContext.deduplicationKey (context : BridgeContext) : LeaseKey :=
  (context.bindingId, context.provider, context.accountId, context.eventId)

def BridgeContext.route (context : BridgeContext) : LeaseRoute :=
  (context.accountId, context.conversationId, context.threadId)

def sameDeliveryIdentity (left right : BridgeContext) : Bool :=
  left.bindingId = right.bindingId && left.provider = right.provider && left.accountId = right.accountId &&
    left.actorId = right.actorId && left.conversationId = right.conversationId && left.eventId = right.eventId &&
    left.threadId = right.threadId && left.replyToEventId = right.replyToEventId &&
    left.apiVersion = right.apiVersion && left.conversationKind = right.conversationKind

structure ProcessingIndicator where
  context : BridgeContext
  users : Nat := 1
  closed : Bool := false

namespace ProcessingIndicator

variable (self : ProcessingIndicator)

def join : ProcessingIndicator := { self with users := self.users + 1 }
def leave : ProcessingIndicator := { self with users := self.users - 1 }
def close : ProcessingIndicator := { self with closed := true }

end ProcessingIndicator

/-- A turn with a native surface. -/
structure TypingTurn where
  indicator : Nat
  /-- `begin_processing` has not returned. -/
  beginning : Bool

structure TypingBridge where
  /-- Every indicator there was, by number. -/
  indicators : List ProcessingIndicator := []
  leases : Dict LeaseKey Nat := .empty
  turns : Dict Nat TypingTurn := .empty
  /-- What `stop` has gathered and not ended yet. -/
  stopping : List Nat := []
  /-- The indicators that await the authorization of their clear. -/
  clearing : List Nat := []

inductive TypingEvent where
  | start
  | stop
  | endStopped (indicator : Nat)
  | beginProcessing (turn : Nat) (context : BridgeContext)
  | begun (turn : Nat)
  /-- `indicator.begin` raises, in a task that is cancelled. -/
  | cancelled (turn : Nat)
  | endProcessing (turn : Nat)
  /-- The clear, if it may be issued by then. -/
  | clear (indicator : Nat)

namespace TypingBridge

variable (s : TypingBridge)

def step : TypingEvent → Option TypingBridge
  | .start => some s
  | .stop => some { s with leases := .empty, stopping := s.stopping ++ s.leases.values }
  | .endStopped i =>
    if i ∈ s.stopping then
      some { s with stopping := s.stopping.erase i, indicators := s.indicators.modify i .close }
    else none
  | .beginProcessing turn context =>
    if (s.turns.get? turn).isSome then none
    else match s.leases.get? context.deduplicationKey with
      | some i => s.indicators[i]?.map fun existing =>
        if sameDeliveryIdentity existing.context context then
          { s with indicators := s.indicators.modify i .join, turns := s.turns.set turn ⟨i, false⟩ }
        else s
      | none =>
        let i := s.indicators.length
        some { s with
          indicators := s.indicators ++ [{ context := context }]
          leases := s.leases.set context.deduplicationKey i
          turns := s.turns.set turn ⟨i, true⟩ }
  | .begun turn =>
    match s.turns.get? turn with
    | some ⟨i, true⟩ => some { s with turns := s.turns.set turn ⟨i, false⟩ }
    | _ => none
  | .cancelled turn =>
    match s.turns.get? turn with
    | some ⟨i, true⟩ => s.indicators[i]?.map fun indicator =>
      { s with
        leases := s.leases.erase indicator.context.deduplicationKey
        indicators := s.indicators.modify i .close
        turns := s.turns.erase turn }
    | _ => none
  | .endProcessing turn =>
    match s.turns.get? turn with
    | some ⟨i, false⟩ => s.indicators[i]?.map fun indicator =>
      let left := { s with indicators := s.indicators.modify i .leave, turns := s.turns.erase turn }
      if indicator.users - 1 > 0 then left
      else
        let popped := { left with leases := s.leases.erase indicator.context.deduplicationKey }
        if indicator.closed then popped
        else { popped with indicators := popped.indicators.modify i .close, clearing := i :: s.clearing }
    | _ => none
  | .clear i => if i ∈ s.clearing then some { s with clearing := s.clearing.erase i } else none

def routeOf (i : Nat) : Option LeaseRoute := s.indicators[i]?.map fun indicator => indicator.context.route

/-- What `end_processing` asks right before the clear is issued. -/
def mayClear (i : Nat) : Bool := !(s.leases.values.any fun j => s.routeOf j = s.routeOf i)

/-- The table holds the open indicators in use, and a clear hits no other turn. -/
structure Matched : Prop where
  leases : ∀ key i, s.leases.get? key = some i ↔ ∃ indicator turn held, s.indicators[i]? = some indicator ∧
    indicator.closed = false ∧ indicator.context.deduplicationKey = key ∧
    s.turns.get? turn = some held ∧ held.indicator = i
  clears : ∀ i ∈ s.clearing, s.mayClear i = true →
    ∀ turn held, s.turns.get? turn = some held → s.routeOf held.indicator ≠ s.routeOf i

/-- The bridge is stopped with an empty table only, and no indicator that is shared fails to begin. -/
def quiet : TypingEvent → Bool
  | .stop => s.leases.entries.isEmpty
  | .cancelled turn => s.turns.entries.all fun e =>
    e.1 = turn || some e.2.indicator ≠ (s.turns.get? turn).map TypingTurn.indicator
  | _ => true

def usersOf (turns : Dict Nat TypingTurn) (i : Nat) : Nat := turns.sumBy fun _ held => if held.indicator = i then 1 else 0

def openAt (i : Nat) : Option ProcessingIndicator := s.indicators[i]?.filter fun indicator => !indicator.closed

structure Inv : Prop where
  users : ∀ i, usersOf s.turns i = ((s.openAt i).map ProcessingIndicator.users).getD 0
  used : ∀ i indicator, s.openAt i = some indicator → 0 < indicator.users
  leases : ∀ key i, s.leases.get? key = some i ↔ (s.openAt i).map (fun a => a.context.deduplicationKey) = some key
  stopping : s.stopping = []

variable {s} {i : Nat} {indicator : ProcessingIndicator}

theorem openAt_eq_some : s.openAt i = some indicator ↔ s.indicators[i]? = some indicator ∧ indicator.closed = false := by
  rw [openAt, filter_eq_some_iff, Bool.not_eq_true']

theorem usersOf_pos {turns : Dict Nat TypingTurn} : 0 < usersOf turns i ↔
    ∃ turn held, turns.get? turn = some held ∧ held.indicator = i := by
  rw [Nat.pos_iff_ne_zero, Ne, usersOf, Dict.sumBy_eq_zero_iff]
  push Not
  exact exists_congr fun turn => exists_congr fun held => and_congr_right fun _ => by simp

theorem usersOf_set {turns : Dict Nat TypingTurn} {turn : Nat} (hfresh : turns.get? turn = none) (held : TypingTurn)
    (j : Nat) : usersOf (turns.set turn held) j = (if held.indicator = j then 1 else 0) + usersOf turns j := by
  rw [usersOf, Dict.sumBy_set, Dict.erase_of_get?_none _ hfresh]
  rfl

theorem usersOf_erase {turns : Dict Nat TypingTurn} {turn : Nat} {held : TypingTurn}
    (hturn : turns.get? turn = some held) (j : Nat) :
    usersOf turns j = (if held.indicator = j then 1 else 0) + usersOf (turns.erase turn) j :=
  Dict.sumBy_erase _ _ hturn

theorem Inv.held (h : s.Inv) {turn : Nat} {held : TypingTurn} (hturn : s.turns.get? turn = some held) :
    ∃ indicator, s.openAt held.indicator = some indicator := by
  have hpos := usersOf_pos.mpr ⟨turn, held, hturn, rfl⟩
  rw [h.users] at hpos
  cases hopen : s.openAt held.indicator with
  | none => simp [hopen] at hpos
  | some indicator => exact ⟨indicator, rfl⟩

theorem Inv.lease (h : s.Inv) (hi : s.openAt i = some indicator) :
    s.leases.get? indicator.context.deduplicationKey = some i := (h.leases _ i).mpr (by rw [hi]; rfl)

theorem Inv.matched (h : s.Inv) : s.Matched := by
  refine ⟨fun key i => ?_, fun i _ hclear turn held hturn hroute => ?_⟩
  · rw [h.leases, map_eq_some_iff]
    constructor
    · rintro ⟨indicator, hi, hkey⟩
      obtain ⟨hget, hopen⟩ := openAt_eq_some.mp hi
      have hpos := h.used i indicator hi
      have husers := h.users i
      rw [hi, map_some, getD_some] at husers
      obtain ⟨turn, held, hturn, hheld⟩ := usersOf_pos.mp (husers ▸ hpos)
      exact ⟨indicator, turn, held, hget, hopen, hkey, hturn, hheld⟩
    · rintro ⟨indicator, _, _, hget, hopen, hkey, _, _⟩
      exact ⟨indicator, openAt_eq_some.mpr ⟨hget, hopen⟩, hkey⟩
  · obtain ⟨indicator, hi⟩ := h.held hturn
    have hshared : (s.leases.values.any fun j => s.routeOf j = s.routeOf i) = true :=
      List.any_eq_true.mpr ⟨_, (Dict.mem_values_iff _ _).mpr ⟨_, h.lease hi⟩, by simpa using hroute⟩
    rw [mayClear, hshared] at hclear
    cases hclear

/-- A step that touches one indicator, which is `new` after it. -/
theorem Inv.update (h : s.Inv) {t : TypingBridge} {x : Option ProcessingIndicator}
    (hopen : ∀ j, t.openAt j = if j = i then x else s.openAt j)
    (husers : ∀ j, usersOf t.turns j = if j = i then (x.map ProcessingIndicator.users).getD 0 else usersOf s.turns j)
    (hused : ∀ indicator, x = some indicator → 0 < indicator.users)
    (hleases : ∀ key j, t.leases.get? key = some j ↔
      if j = i then x.map (fun a => a.context.deduplicationKey) = some key else s.leases.get? key = some j)
    (hstopping : t.stopping = []) : t.Inv := by
  refine ⟨fun j => ?_, fun j a ha => ?_, fun key j => ?_, hstopping⟩
  · rw [husers, hopen]
    split
    · rfl
    · exact h.users j
  · rw [hopen] at ha
    split at ha
    · exact hused a ha
    · exact h.used j a ha
  · rw [hleases, hopen]
    split
    · rfl
    · exact h.leases key j

theorem openAt_modify {t : TypingBridge} {f : ProcessingIndicator → ProcessingIndicator}
    (ht : t.indicators = s.indicators.modify i f) (hi : s.indicators[i]? = some indicator) (j : Nat) :
    t.openAt j = if j = i then (some (f indicator)).filter (fun a => !a.closed) else s.openAt j := by
  rw [openAt, ht, List.getElem?_modify]
  by_cases hj : j = i
  · rw [if_pos hj, hj, hi]
    simp
  · rw [if_neg hj, openAt]
    simp [Ne.symm hj]

/-- The indicator stays open, with as many users as it has turns. -/
theorem Inv.share (h : s.Inv) {t : TypingBridge} {f : ProcessingIndicator → ProcessingIndicator}
    (hi : s.openAt i = some indicator) (ht : t.indicators = s.indicators.modify i f)
    (hf : (f indicator).closed = false ∧ (f indicator).context = indicator.context)
    (husers : ∀ j, usersOf t.turns j = if j = i then (f indicator).users else usersOf s.turns j)
    (hused : 0 < (f indicator).users) (hleases : t.leases = s.leases) (hstopping : t.stopping = s.stopping) : t.Inv := by
  refine h.update (i := i) (x := some (f indicator)) (fun j => ?_) husers ?_ (fun key j => ?_) (hstopping.trans h.stopping)
  · rw [openAt_modify ht (openAt_eq_some.mp hi).1, filter_some, hf.1]
    rfl
  · rintro _ ⟨⟩
    exact hused
  · rw [hleases]
    split
    · rename_i hj
      rw [hj, h.leases, hi, map_some, map_some, hf.2]
    · rfl

/-- The only turn of an indicator leaves, and the indicator is closed and out of the table. -/
theorem Inv.shut (h : s.Inv) {t : TypingBridge} {turn : Nat} {held : TypingTurn}
    (hturn : s.turns.get? turn = some held) (hi : s.openAt held.indicator = some indicator)
    (honly : usersOf s.turns held.indicator = 1)
    (hopen : ∀ j, t.openAt j = if j = held.indicator then none else s.openAt j)
    (hleases : t.leases = s.leases.erase indicator.context.deduplicationKey)
    (hturns : t.turns = s.turns.erase turn) (hstopping : t.stopping = s.stopping) : t.Inv := by
  refine h.update hopen (fun j => ?_) (by rintro _ ⟨⟩) (fun key j => ?_) (hstopping.trans h.stopping)
  · have hcount := usersOf_erase hturn j
    rw [hturns]
    split
    · rename_i hj
      rw [hj, honly, if_pos rfl] at hcount
      rw [hj]
      exact (Nat.add_left_cancel hcount).symm
    · rename_i hj
      rw [if_neg (Ne.symm hj), Nat.zero_add] at hcount
      exact hcount.symm
  · rw [hleases, Dict.get?_erase]
    by_cases hkey : key = indicator.context.deduplicationKey
    · rw [if_pos hkey, hkey, h.lease hi]
      split <;> simp_all [eq_comm]
    · rw [if_neg hkey]
      split
      · rename_i hj
        rw [hj, h.leases, hi]
        simpa using Ne.symm hkey
      · rfl

/-- A turn on an indicator of its own. -/
theorem Inv.lend (h : s.Inv) {turn : Nat} {context : BridgeContext} (hfresh : s.turns.get? turn = none)
    (hlease : s.leases.get? context.deduplicationKey = none) :
    Inv { s with
      indicators := s.indicators ++ [{ context := context }]
      leases := s.leases.set context.deduplicationKey s.indicators.length
      turns := s.turns.set turn ⟨s.indicators.length, true⟩ } := by
  have hnone : s.openAt s.indicators.length = none := by
    rw [openAt, List.getElem?_eq_none le_rfl]
    rfl
  refine h.update (i := s.indicators.length) (x := some { context := context }) (fun j => ?_) (fun j => ?_) ?_
    (fun key j => ?_) h.stopping
  · rw [openAt, openAt, List.getElem?_append]
    split
    · rename_i hlt
      rw [if_neg hlt.ne]
    · rename_i hge
      by_cases hj : j = s.indicators.length
      · rw [if_pos hj, hj, Nat.sub_self]
        rfl
      · rw [if_neg hj, List.getElem?_eq_none (not_lt.mp hge), List.getElem?_eq_none (by simp; omega)]
  · dsimp only
    rw [usersOf_set hfresh]
    by_cases hj : j = s.indicators.length
    · rw [if_pos hj, if_pos hj.symm, hj, h.users, hnone]
      rfl
    · rw [if_neg hj, if_neg (Ne.symm hj), Nat.zero_add]
  · rintro _ ⟨⟩
    exact Nat.one_pos
  · rw [Dict.get?_set]
    by_cases hj : j = s.indicators.length
    · have hother := h.leases key s.indicators.length
      rw [hnone, map_none] at hother
      rw [if_pos hj, hj]
      split <;> simp_all [eq_comm]
    · rw [if_neg hj]
      split
      · rename_i hkey
        rw [hkey, hlease]
        simpa using Ne.symm hj
      · rfl

theorem Inv.step {e : TypingEvent} {t : TypingBridge} (h : s.Inv) (hq : s.quiet e = true)
    (he : s.step e = some t) : t.Inv := by
  cases e with
  | start =>
    cases he
    exact h
  | stop =>
    have hempty : s.leases = .empty := Dict.ext (List.isEmpty_iff.mp hq)
    obtain ⟨indicators, leases, turns, stopping, clearing⟩ := s
    subst hempty
    cases he
    exact ⟨h.users, h.used, h.leases, (List.append_nil _).trans h.stopping⟩
  | endStopped i =>
    rw [TypingBridge.step, h.stopping] at he
    simp at he
  | beginProcessing turn context =>
    rw [TypingBridge.step] at he
    split at he
    · cases he
    rename_i hfresh
    rw [Bool.not_eq_true, isSome_eq_false_iff, isNone_iff_eq_none] at hfresh
    split at he
    · rename_i i hlease
      obtain ⟨existing, hi, rfl⟩ := map_eq_some_iff.mp he
      obtain ⟨existing', hopen, _⟩ := map_eq_some_iff.mp ((h.leases _ i).mp hlease)
      cases hi.symm.trans (openAt_eq_some.mp hopen).1
      split
      · refine h.share hopen rfl ⟨(openAt_eq_some.mp hopen).2, rfl⟩ (fun j => ?_) (Nat.succ_pos _) rfl rfl
        rw [usersOf_set hfresh]
        by_cases hj : j = i
        · rw [if_pos hj, if_pos hj.symm, hj, h.users, hopen]
          exact Nat.add_comm _ _
        · rw [if_neg hj, if_neg (Ne.symm hj), Nat.zero_add]
      · exact h
    · rename_i hlease
      cases he
      exact h.lend hfresh hlease
  | begun turn =>
    rw [TypingBridge.step] at he
    split at he
    · rename_i i hturn
      cases he
      refine ⟨fun j => ?_, h.used, h.leases, h.stopping⟩
      have hold := h.users j
      rw [usersOf_erase hturn] at hold
      rw [usersOf, Dict.sumBy_set]
      exact hold
    · cases he
  | cancelled turn =>
    rw [TypingBridge.step] at he
    split at he
    · rename_i i hturn
      obtain ⟨indicator, hi, rfl⟩ := map_eq_some_iff.mp he
      obtain ⟨indicator', hopen⟩ := h.held hturn
      cases hi.symm.trans (openAt_eq_some.mp hopen).1
      refine h.shut hturn hopen ?_ (fun j => openAt_modify (f := .close) rfl hi j) rfl rfl rfl
      have hnone : usersOf (s.turns.erase turn) i = 0 := by
        by_contra hused
        obtain ⟨other, held, hother, hheld⟩ := usersOf_pos.mp (Nat.pos_of_ne_zero hused)
        obtain ⟨hne, hother⟩ := ite_none_left_eq_some.mp (Dict.get?_erase s.turns turn other ▸ hother)
        have hall := List.all_eq_true.mp hq _ ((Dict.get?_eq_some_iff _ _ _).mp hother)
        simp [hne, hturn, hheld] at hall
      rw [usersOf_erase hturn, hnone, if_pos rfl]
    · cases he
  | endProcessing turn =>
    rw [TypingBridge.step] at he
    split at he
    · rename_i i hturn
      obtain ⟨indicator, hi, rfl⟩ := map_eq_some_iff.mp he
      obtain ⟨indicator', hopen⟩ := h.held hturn
      cases hi.symm.trans (openAt_eq_some.mp hopen).1
      have husers := h.users i
      rw [hopen, map_some, getD_some] at husers
      dsimp only
      split
      · rename_i hmore
        refine h.share hopen rfl ⟨(openAt_eq_some.mp hopen).2, rfl⟩ (fun j => ?_) hmore rfl rfl
        have hcount := usersOf_erase hturn j
        by_cases hj : j = i
        · rw [hj, if_pos rfl, husers] at hcount
          rw [if_pos hj, hj, ProcessingIndicator.leave, hcount, Nat.add_sub_cancel_left]
        · rw [if_neg hj, hcount, if_neg (Ne.symm hj), Nat.zero_add]
      · rename_i hlast
        rw [if_neg (by rw [(openAt_eq_some.mp hopen).2]; exact Bool.false_ne_true)]
        have hpos := h.used i indicator hopen
        refine h.shut hturn hopen (by rw [husers]; omega) (fun j => ?_) rfl rfl rfl
        rw [openAt_modify (s := { s with indicators := s.indicators.modify i .leave }) rfl
          (by rw [List.getElem?_modify, hi]; simp; rfl)]
        split
        · rfl
        · rename_i hj
          rw [openAt_modify rfl hi, if_neg hj]
    · cases he
  | clear i =>
    rw [TypingBridge.step] at he
    split at he
    · cases he
      exact ⟨h.users, h.used, h.leases, h.stopping⟩
    · cases he

theorem inv_empty : Inv {} :=
  ⟨fun _ => rfl, fun _ _ h => (by cases h), fun _ _ => ⟨fun h => (by cases h), fun h => (by cases h)⟩, rfl⟩

/-- While the bridge is stopped with an empty table only and no shared indicator fails to begin, the table and the
clears are right in every state. -/
theorem matched_of_quiet (h : Runs.ReachesUnder step (fun s e => s.quiet e = true) {} s) : s.Matched :=
  (Runs.invariant_under (fun _ _ _ hs hq he => Inv.step hs hq he) inv_empty h).matched

def slackEvent (event : String) : BridgeContext where
  bindingId := "binding"
  provider := "slack"
  accountId := "team"
  actorId := "user"
  conversationId := "channel"
  eventId := event
  threadId := some "thread"

/-- Two turns of one thread, the first of them delivered twice. -/
def quietRun : List TypingEvent :=
  [.start, .beginProcessing 0 (slackEvent "first"), .begun 0, .beginProcessing 1 (slackEvent "first"),
    .beginProcessing 2 (slackEvent "second"), .begun 2, .endProcessing 0, .endProcessing 1]

theorem shared_turns_matched : ∃ s, Runs.ReachesUnder step (fun s e => s.quiet e = true) {} s ∧ s.Matched ∧
    s.clearing = [0] := by
  have hrun : (Runs.run step {} quietRun).any (fun s => s.clearing = [0]) = true := by decide +kernel
  obtain ⟨s, hs, hclearing⟩ := (any_eq_true _ _).mp hrun
  have h : Runs.ReachesUnder step (fun s e => s.quiet e = true) {} s :=
    Runs.reachesUnder_of_all (by decide +kernel) hs
  exact ⟨s, h, matched_of_quiet h, by simpa using hclearing⟩

/-- A turn that outlives a stop takes the lease of the next one of its event out of the table. -/
def stoppedRun : List TypingEvent :=
  [.start, .beginProcessing 0 (slackEvent "first"), .begun 0, .stop, .endStopped 0, .start,
    .beginProcessing 1 (slackEvent "first"), .begun 1, .endProcessing 0]

theorem lease_lost_after_stop : ¬ ∀ s, Runs.Reaches step {} s → s.Matched := by
  intro h
  have hrun : (Runs.run step {} stoppedRun).any (fun s =>
      (s.leases.get? (slackEvent "first").deduplicationKey).isNone &&
      s.indicators[1]?.any (fun a => !a.closed && a.context = slackEvent "first") &&
      (s.turns.get? 1).any (fun held => held.indicator = 1)) = true := by decide +kernel
  obtain ⟨s, hs, hfacts⟩ := (any_eq_true _ _).mp hrun
  simp only [Bool.and_eq_true, any_eq_true, isNone_iff_eq_none, Bool.not_eq_true', decide_eq_true_eq]
    at hfacts
  obtain ⟨⟨hnone, a, ha, hopen, hcontext⟩, held, hturn, hheld⟩ := hfacts
  have hsome := ((h s ⟨_, hs⟩).leases _ 1).mpr ⟨a, 1, held, ha, hopen, congrArg _ hcontext, hturn, hheld⟩
  rw [hnone] at hsome
  cases hsome

end TypingBridge

end OpenAgent.Channels
