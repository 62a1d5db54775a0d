import OpenAgent.Lib.Laws
import OpenAgent.McpApps.HostService

namespace OpenAgent.McpApps.Host

open Py Laws List

def Act.of (client : Client) : Act → Bool
  | .answered c _ | .granted c _ => c = client
  | .response r _ => .handler r = client
  | _ => false

def last (client : Client) (trace : List Act) : Option Act := (trace.filter (Act.of client)).getLast?

def law (trace : List Act) : Act → Prop
  | .viewed v _ => ∀ owner, .viewed v owner ∉ trace
  | .retired v => .retired v ∉ trace
  | .closed n => .closed n ∉ trace
  | .answered _ _ => True
  | .granted client v => .retired v ∉ trace ∧
      ∃ owner, .viewed v owner ∈ trace ∧ last client trace = some (.answered client owner)
  | .operates v id => .retired v ∉ trace ∧ .operates v id ∉ trace
  | .decided v policy info decision => policy.Contained info decision ∧ ∀ p i d, .decided v p i d ∉ trace
  | .response r v => last (.handler r) trace = some (.granted (.handler r) v)

def Once.busy (once : Once) : Bool :=
  match once.stage with
  | .settled _ => false
  | _ => true

def Once.fresh (once : Once) : Bool :=
  match once.stage with
  | .queued | .authorizing _ => true
  | _ => false

/-- What a view knows of the acts so far; who holds the token is alone in deciding. -/
structure View.Ok (trace : List Act) (v : Nat) (view : View) : Prop where
  once : ∀ id once, view.requests.get? id = some once → once.busy = true → view.interactive = some (.request id)
  task : ∀ task, view.task = some task → task.settled = false → view.interactive = some .policy
  unoperated : ∀ id, (∀ once, view.requests.get? id = some once → once.fresh = true) → .operates v id ∉ trace
  undecided : (∀ task, view.task = some task → task.settled = false) → ∀ p i d, .decided v p i d ∉ trace
  listed : view.listed = true ↔ .retired v ∉ trace
  viewed : .viewed v view.owner ∈ trace

def Act.plain : Act → Bool
  | .closed _ | .answered _ _ | .granted _ _ | .response _ _ => true
  | _ => false

structure Standing (s : Service) : Prop where
  lawful : Lawful law s.trace
  views : ∀ v view, s.views.get? v = some view → view.Ok s.trace v
  fresh : ∀ v, s.viewCount ≤ v → s.views.get? v = none ∧ (∀ owner, .viewed v owner ∉ s.trace) ∧
    .retired v ∉ s.trace ∧ (∀ id, .operates v id ∉ s.trace) ∧ ∀ p i d, .decided v p i d ∉ s.trace
  published : ∀ r handler result, s.handlers.get? r = some handler → handler.stage = .publish .passed result →
    last (.handler r) s.trace = some (.granted (.handler r) handler.view)

variable {acts trace : List Act}

theorem last_append {client : Client} (h : ∀ a ∈ acts, a.of client = false) :
    last client (trace ++ acts) = last client trace := by
  have hnone : acts.filter (Act.of client) = [] := filter_eq_nil_iff.mpr fun a ha => by simp [h a ha]
  unfold last
  rw [filter_append, hnone, append_nil]

theorem last_concat {client : Client} {a : Act} (h : a.of client = true) : last client (trace ++ [a]) = some a := by
  unfold last
  rw [filter_append, filter_cons_of_pos h]
  simp

theorem mem_append_of {a : Act} {p : Act → Bool} (hacts : ∀ b ∈ acts, p b = true)
    (ha : p a = false) : a ∈ trace ++ acts ↔ a ∈ trace := by
  rw [mem_append, or_iff_left]
  intro hm
  rw [hacts a hm] at ha
  cases ha

theorem View.Ok.plain {v : Nat} {view : View} (h : view.Ok trace v)
    (hacts : ∀ a ∈ acts, a.plain = true) : view.Ok (trace ++ acts) v := by
  refine ⟨h.once, h.task, fun id hid => ?_, fun htask p i d => ?_, ?_, ?_⟩
  · rw [mem_append_of hacts rfl]
    exact h.unoperated id hid
  · rw [mem_append_of hacts rfl]
    exact h.undecided htask p i d
  · rw [mem_append_of hacts rfl]
    exact h.listed
  · exact mem_append_left _ h.viewed

namespace Standing

variable {s t : Service}

theorem frame (h : Standing s) (htra : t.trace = s.trace ++ acts) (hacts : ∀ a ∈ acts, a.plain = true)
    (hlaw : Lawful law t.trace) (hview : t.views = s.views) (hcou : t.viewCount = s.viewCount)
    (hpub : ∀ r handler result, t.handlers.get? r = some handler → handler.stage = .publish .passed result →
      last (.handler r) t.trace = some (.granted (.handler r) handler.view)) : Standing t := by
  refine ⟨hlaw, fun v view hv => ?_, fun v hv => ?_, hpub⟩
  · rw [hview] at hv
    rw [htra]
    exact (h.views v view hv).plain hacts
  rw [hcou] at hv
  obtain ⟨hnone, hvie, hret, hope, hdec⟩ := h.fresh v hv
  rw [hview, htra]
  refine ⟨hnone, fun owner => ?_, ?_, fun id => ?_, fun p i d => ?_⟩
  · rw [mem_append_of hacts rfl]
    exact hvie owner
  · rw [mem_append_of hacts rfl]
    exact hret
  · rw [mem_append_of hacts rfl]
    exact hope id
  · rw [mem_append_of hacts rfl]
    exact hdec p i d

theorem same (h : Standing s) (htra : t.trace = s.trace) (hvie : t.views = s.views)
    (hcou : t.viewCount = s.viewCount) (hhan : t.handlers = s.handlers) : Standing t := by
  refine h.frame (htra.trans (append_nil _).symm) (fun _ ha => by cases ha) (by rw [htra]; exact h.lawful) hvie
    hcou ?_
  rw [hhan, htra]
  exact h.published

theorem setStage (h : Standing s) (r : Nat) (handler : Handler) {stage : Stage}
    (hstage : ∀ result, stage ≠ .publish .passed result) : Standing (s.setStage r handler stage) := by
  refine h.frame (t := s.setStage r handler stage) (append_nil _).symm (fun _ ha => by cases ha) h.lawful rfl rfl ?_
  intro q other result hq ho
  have hget : (s.handlers.set r { handler with stage := stage }).get? q = some other := hq
  rw [Dict.get?_set] at hget
  split at hget
  · rw [Option.some.injEq] at hget
    rw [← hget] at ho
    exact absurd ho (hstage result)
  · exact h.published q other result hget ho

theorem setView (h : Standing s) {v : Nat} {view view' : View} (hv : s.views.get? v = some view)
    (hok : view'.Ok s.trace v) : Standing (s.setView v view') := by
  refine ⟨h.lawful, fun w other hw => ?_, fun w hw => ?_, h.published⟩
  · have hget : (s.views.set v view').get? w = some other := hw
    rw [Dict.get?_set] at hget
    by_cases hwv : w = v
    · rw [if_pos hwv, Option.some.injEq] at hget
      rw [hwv, ← hget]
      exact hok
    · rw [if_neg hwv] at hget
      exact h.views w other hget
  obtain ⟨hnone, hrest⟩ := h.fresh w hw
  refine ⟨?_, hrest⟩
  show (s.views.set v view').get? w = none
  rw [Dict.get?_set_of_ne]
  · exact hnone
  intro hwv
  rw [hwv, hv] at hnone
  cases hnone

theorem about (h : Standing s) {v : Nat} {view view' : View} {a : Act} (hv : s.views.get? v = some view)
    (hlaw : law s.trace a) (hok : view'.Ok (s.trace ++ [a]) v)
    (hoth : ∀ w other, w ≠ v → other.Ok s.trace w → View.Ok (s.trace ++ [a]) w other)
    (hnew : ∀ w, w ≠ v → (∀ owner, a ≠ .viewed w owner) ∧ a ≠ .retired w ∧ (∀ id, a ≠ .operates w id) ∧
      ∀ p i d, a ≠ .decided w p i d) (hcli : ∀ client, a.of client = false) :
    Standing ((s.setView v view').act a) := by
  have htra : ((s.setView v view').act a).trace = s.trace ++ [a] := rfl
  refine ⟨?_, fun w other hw => ?_, fun w hw => ?_, fun r handler result hr hstage => ?_⟩
  · rw [htra, lawful_concat]
    exact ⟨h.lawful, hlaw⟩
  · have hget : (s.views.set v view').get? w = some other := hw
    rw [htra]
    rw [Dict.get?_set] at hget
    by_cases hwv : w = v
    · rw [if_pos hwv, Option.some.injEq] at hget
      rw [hwv, ← hget]
      exact hok
    · rw [if_neg hwv] at hget
      exact hoth w other hwv (h.views w other hget)
  · obtain ⟨hnone, hvie, hret, hope, hdec⟩ := h.fresh w hw
    have hwv : w ≠ v := by
      intro hwv
      rw [hwv, hv] at hnone
      cases hnone
    obtain ⟨ha, hb, hc, hd⟩ := hnew w hwv
    rw [htra]
    simp only [mem_append, mem_singleton, not_or]
    refine ⟨?_, fun owner => ⟨hvie owner, Ne.symm (ha owner)⟩, ⟨hret, Ne.symm hb⟩,
      fun id => ⟨hope id, Ne.symm (hc id)⟩, fun p i d => ⟨hdec p i d, Ne.symm (hd p i d)⟩⟩
    show (s.views.set v view').get? w = none
    rw [Dict.get?_set_of_ne _ _ hwv]
    exact hnone
  · rw [htra, last_append]
    · exact h.published r handler result hr hstage
    · intro b hb
      rw [mem_singleton.mp hb]
      exact hcli _

theorem ok_other {a : Act} {w : Nat} {other : View} (h : other.Ok trace w)
    (hnew : a ≠ .retired w ∧ (∀ id, a ≠ .operates w id) ∧ ∀ p i d, a ≠ .decided w p i d) :
    other.Ok (trace ++ [a]) w := by
  obtain ⟨hret, hope, hdec⟩ := hnew
  refine ⟨h.once, h.task, fun id hid => ?_, fun htask p i d => ?_, ?_, mem_append_left _ h.viewed⟩
  · rw [mem_append, mem_singleton, not_or]
    exact ⟨h.unoperated id hid, Ne.symm (hope id)⟩
  · rw [mem_append, mem_singleton, not_or]
    exact ⟨h.undecided htask p i d, Ne.symm (hdec p i d)⟩
  · rw [mem_append, mem_singleton, not_or, and_iff_left (Ne.symm hret)]
    exact h.listed

theorem retire (h : Standing s) (v : Nat) : Standing (s.retire v) := by
  unfold Service.retire
  rcases hv : s.views.get? v with _ | view
  · exact h
  dsimp only
  by_cases hlis : view.listed = true
  · rw [if_pos hlis]
    have hok := h.views v view hv
    have hret : Standing { s with retiring := s.retiring ++ [view.session.n] } := h.same rfl rfl rfl rfl
    refine hret.about hv (hok.listed.mp hlis) ?_ ?_ ?_ fun _ => rfl
    · refine ⟨hok.once, fun task htask hset => ?_, fun id hid => ?_, fun htask p i d => ?_, ?_, ?_⟩
      · obtain ⟨old, hold, rfl⟩ := Option.map_eq_some_iff.mp htask
        exact hok.task old hold hset
      · rw [mem_append, mem_singleton, not_or]
        exact ⟨hok.unoperated id hid, fun hf => by cases hf⟩
      · rw [mem_append, mem_singleton, not_or]
        refine ⟨hok.undecided (fun task ht => ?_) p i d, fun hf => by cases hf⟩
        exact htask { task with cancelled := true } (Option.map_eq_some_iff.mpr ⟨task, ht, rfl⟩)
      · exact iff_of_false (show ¬(false = true) by decide) fun hn => hn (mem_append_right _ (mem_singleton_self _))
      · exact mem_append_left _ hok.viewed
    · intro w other hwv hoth
      refine ok_other hoth ⟨fun hf => ?_, fun _ hf => (by cases hf), fun _ _ _ hf => by cases hf⟩
      cases hf
      exact hwv rfl
    intro w hwv
    refine ⟨fun _ hf => (by cases hf), fun hf => ?_, fun _ hf => (by cases hf), fun _ _ _ hf => by cases hf⟩
    cases hf
    exact hwv rfl
  · rw [if_neg hlis]
    exact h

theorem retireAll (h : Standing s) (vs : List Nat) : Standing (s.retireAll vs) := by
  induction vs generalizing s with
  | nil => exact h
  | cons v vs ih => exact ih (h.retire v)

end Standing

end OpenAgent.McpApps.Host
