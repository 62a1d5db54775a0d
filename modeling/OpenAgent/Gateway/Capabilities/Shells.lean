import Mathlib.Data.List.MinMax
import OpenAgent.Gateway.Capabilities.World

namespace OpenAgent.Gateway.Capabilities

open Py List Dict World

/-- `CLIENT_SHELL_RECONNECT_GRACE_S`, in milliseconds like every time of the model. -/
def clientShellReconnectGrace : Int := 300000
def maxDetachedShellHosts : Nat := 256
def maxDetachedShells : Nat := 4096

abbrev Ledger := Dict HostKey DetachedClientShells

def optionText (o : Option String) : String := o.getD "None"

namespace World

def markCompleted (w : World) (b : BindingId) : World :=
  { w with binding := Function.update w.binding b { w.binding b with completed := true } }

/-- `_complete_shell`: the event handed to the background-job service. -/
def completeShell (w : World) (b : BindingId) (kind : String) (exitCode : Option Int)
    (signal : Option String) (stdoutBytes stderrBytes : Int) (time : Int) : World :=
  let shell := w.binding b
  w.emit (.shellCompleted b
    { jobId := shell.internalShellId, kind, sourceId := shell.sourceId, shellId := shell.clientShellId
      summary := s!"Shell {shell.clientShellId} {kind}; exit_code={optionText (exitCode.map toString)}, " ++
        s!"signal={optionText signal}, stdout_bytes={stdoutBytes}, stderr_bytes={stderrBytes}"
      time })

def orphanBinding (signal : String) (now : Int) (w : World) (b : BindingId) : World :=
  if (w.binding b).completed then w
  else (w.completeShell b "killed" none (some signal) 0 0 now).markCompleted b

def orphanShellBindings (w : World) (bs : List BindingId) (signal : String) (now : Int) : World :=
  bs.foldl (orphanBinding signal now) w

def orphanDetached (w : World) (ds : List DetachedClientShells) (signal : String) (now : Int) : World :=
  ds.foldl (fun w d => w.orphanShellBindings d.bindings.values signal now) w

end World

def graceOver (now : Int) (d : DetachedClientShells) : Bool :=
  now - d.disconnectedAt > clientShellReconnectGrace

def shellCount (ledger : Ledger) : Nat := ledger.sumBy (fun _ d => d.bindings.size)

def overCapacity (ledger : Ledger) : Bool :=
  ledger.size > maxDetachedShellHosts || shellCount ledger > maxDetachedShells

-- the order is named, as Mathlib finds a noncomputable way to it
def oldestKey (ledger : Ledger) : Option HostKey :=
  (@List.argmin _ _ Int.instLinearOrder.toPreorder Int.decLt (fun e => e.2.disconnectedAt) ledger.entries).map Prod.fst

def evictOldest : Nat → Ledger → List DetachedClientShells → Ledger × List DetachedClientShells
  | 0, ledger, orphaned => (ledger, orphaned)
  | fuel + 1, ledger, orphaned =>
    if overCapacity ledger then
      match oldestKey ledger with
      | none => (ledger, orphaned)
      | some k => evictOldest fuel (ledger.erase k) (orphaned ++ (ledger.get? k).toList)
    else (ledger, orphaned)

def expireDetachedShells (ledger : Ledger) (now : Int) : Ledger × List DetachedClientShells :=
  let kept := ledger.filter (fun _ d => !graceOver now d)
  evictOldest kept.size kept (ledger.values.filter (graceOver now))

def ledgerWith (ledger : Ledger) (host : HostKey) (bindings : Dict String BindingId) (detachedAt : Int) : Ledger :=
  let existing := ((ledger.get? host).map DetachedClientShells.bindings).getD Dict.empty
  ledger.set host ⟨detachedAt, existing.update bindings⟩

namespace World

/-- `_detach_shells_locked`; `now` is the wall clock that completion events are stamped with. -/
def detachShells (w : World) (c : ConnId) (detachedAt now : Int) : World :=
  if (w.conn c).clientShells.size = 0 then w
  else
    let ledger := ledgerWith w.detachedShells (w.conn c).clientHost (w.conn c).clientShells detachedAt
    let swept := expireDetachedShells ledger detachedAt
    ({ w with detachedShells := swept.1 }.setConn c
      (fun conn => { conn with clientShells := Dict.empty })).orphanDetached swept.2 "CLIENT_OFFLINE" now

end World

/-- How often `_complete_shell` was invoked for a binding. -/
def completions (trace : List Effect) (b : BindingId) : Nat :=
  trace.countP (fun | .shellCompleted b' _ => b' = b
                    | _ => false)

/-- One world turns into another by completing bindings, each of them at most once and only while
it was not completed, and by nothing else. -/
structure Completes (w v : World) (bs : List BindingId) : Prop where
  rest : ∃ tr, v = { w with binding := v.binding, trace := w.trace ++ tr } ∧
    ∀ e ∈ tr, ∃ b event, e = .shellCompleted b event
  completed : ∀ b, (v.binding b).completed = ((w.binding b).completed || decide (b ∈ bs))
  same : ∀ b, v.binding b = { w.binding b with completed := (v.binding b).completed }
  counted : ∀ b, completions v.trace b =
    completions w.trace b + if (w.binding b).completed = false ∧ b ∈ bs then 1 else 0

theorem completions_append (tr us : List Effect) (b : BindingId) :
    completions (tr ++ us) b = completions tr b + completions us b := countP_append

namespace Completes

theorem refl (w : World) : Completes w w [] where
  rest := ⟨[], by simp, by simp⟩
  completed := by simp
  same := fun _ => rfl
  counted := by simp

theorem trans {w v u : World} {bs cs : List BindingId} (h : Completes w v bs) (k : Completes v u cs) :
    Completes w u (bs ++ cs) where
  rest := by
    obtain ⟨tr, hv, htr⟩ := h.rest
    obtain ⟨us, hu, hus⟩ := k.rest
    refine ⟨tr ++ us, ?_, ?_⟩
    · rw [hu]
      simp only
      rw [hv]
      simp
    intro e he
    rcases mem_append.mp he with he | he
    · exact htr e he
    · exact hus e he
  completed := by
    intro b
    rw [k.completed, h.completed]
    simp [Bool.or_assoc]
  same := by
    intro b
    rw [k.same b, h.same b]
  counted := by
    intro b
    rw [k.counted, h.counted, h.completed]
    by_cases hb : b ∈ bs <;> by_cases hc : b ∈ cs <;> cases (w.binding b).completed <;> simp [hb, hc]

end Completes

theorem completeShell_completes (w : World) (b : BindingId) (hb : (w.binding b).completed = false)
    (kind : String) (exitCode : Option Int) (signal : Option String) (stdoutBytes stderrBytes time : Int) :
    Completes w ((w.completeShell b kind exitCode signal stdoutBytes stderrBytes time).markCompleted b) [b] := by
  refine ⟨⟨_, rfl, ?_⟩, ?_, ?_, ?_⟩
  · intro e he
    rw [mem_singleton] at he
    exact ⟨b, _, he⟩
  · intro c
    by_cases hc : c = b <;>
      simp [markCompleted, completeShell, emit, hc]
  · intro c
    by_cases hc : c = b <;>
      simp [markCompleted, completeShell, emit, hc]
  · intro c
    by_cases hc : c = b
    · simp [markCompleted, completeShell, emit, completions, hc, hb]
    · simp [markCompleted, completeShell, emit, completions, hc, Ne.symm hc]

theorem orphanBinding_completes (signal : String) (now : Int) (w : World) (b : BindingId) :
    Completes w (w.orphanBinding signal now b) [b] := by
  unfold orphanBinding
  cases hb : (w.binding b).completed with
  | true =>
    refine ⟨⟨[], by simp, by simp⟩, fun c => ?_, fun _ => rfl, fun c => ?_⟩
    · by_cases hc : c = b <;> simp [hc, hb]
    · by_cases hc : c = b <;> simp [hc, hb]
  | false => exact completeShell_completes w b hb _ _ _ _ _ _

theorem orphanShellBindings_completes (w : World) (bs : List BindingId) (signal : String) (now : Int) :
    Completes w (w.orphanShellBindings bs signal now) bs := by
  induction bs generalizing w with
  | nil => exact Completes.refl w
  | cons b bs ih => exact (orphanBinding_completes signal now w b).trans (ih _)

theorem orphanDetached_completes (w : World) (ds : List DetachedClientShells) (signal : String) (now : Int) :
    Completes w (w.orphanDetached ds signal now) (ds.flatMap (fun d => d.bindings.values)) := by
  induction ds generalizing w with
  | nil => exact Completes.refl w
  | cons d ds ih => exact (orphanShellBindings_completes w _ signal now).trans (ih _)

section Expiry

variable (now : Int) (ledger : Ledger)
variable {d : DetachedClientShells}

variable {k : HostKey}

theorem evictOldest_get? (n : Nat) (ledger : Ledger) (orphaned : List DetachedClientShells)
    (h : (evictOldest n ledger orphaned).1.get? k = some d) :
    ledger.get? k = some d := by
  induction n generalizing ledger orphaned with
  | zero => exact h
  | succ n ih =>
    unfold evictOldest at h
    split at h
    · split at h
      · exact h
      · have he := ih _ _ h
        rw [get?_erase] at he
        split at he
        · cases he
        · exact he
    · exact h

theorem evictOldest_mem (n : Nat) (ledger : Ledger) (orphaned : List DetachedClientShells)
    (h : d ∈ (evictOldest n ledger orphaned).2) :
    d ∈ orphaned ∨ ∃ k, ledger.get? k = some d := by
  induction n generalizing ledger orphaned with
  | zero => exact .inl h
  | succ n ih =>
    unfold evictOldest at h
    split at h
    · split at h
      · exact .inl h
      · rename_i k _
        rcases ih _ _ h with he | ⟨j, hj⟩
        · rcases mem_append.mp he with he | he
          · exact .inl he
          · exact .inr ⟨k, Option.mem_toList.mp he⟩
        rw [get?_erase] at hj
        split at hj
        · cases hj
        · exact .inr ⟨j, hj⟩
    · exact .inl h

variable {ledger : Ledger}

theorem oldestKey_mem (h : oldestKey ledger = some k) : ∃ d, ledger.get? k = some d := by
  unfold oldestKey at h
  obtain ⟨e, he, rfl⟩ := Option.map_eq_some_iff.mp h
  exact ⟨e.2, (get?_eq_some_iff _ _ _).mpr (argmin_mem he)⟩

/-- Eviction moves entries from the ledger to the orphans, none twice and none away. -/
theorem evictOldest_sum (f : DetachedClientShells → Nat) (n : Nat) (ledger : Ledger)
    (orphaned : List DetachedClientShells) :
    (evictOldest n ledger orphaned).1.sumBy (fun _ d => f d) + ((evictOldest n ledger orphaned).2.map f).sum =
    ledger.sumBy (fun _ d => f d) + (orphaned.map f).sum := by
  induction n generalizing ledger orphaned with
  | zero => rfl
  | succ n ih =>
    unfold evictOldest
    split
    · split
      · rfl
      · rename_i k hk
        obtain ⟨d, hd⟩ := oldestKey_mem hk
        rw [ih, sumBy_erase ledger _ hd, hd]
        simp only [Option.toList_some, map_append, map_cons, map_nil, sum_append,
          sum_cons, sum_nil]
        omega
    · rfl

theorem evictOldest_fits (n : Nat) (ledger : Ledger) (orphaned : List DetachedClientShells)
    (hn : ledger.size ≤ n) : overCapacity (evictOldest n ledger orphaned).1 = false := by
  induction n generalizing ledger orphaned with
  | zero =>
    have he : ledger.entries = [] := length_eq_zero_iff.mp (Nat.le_zero.mp hn)
    simp [evictOldest, overCapacity, shellCount, sumBy, size, he]
  | succ n ih =>
    unfold evictOldest
    split
    · split
      · rename_i hk
        have he : ledger.entries = [] := by simpa [oldestKey] using hk
        simp [overCapacity, shellCount, sumBy, size, he]
      · rename_i k hk
        obtain ⟨d, hd⟩ := oldestKey_mem hk
        apply ih
        have hs := sumBy_erase ledger (fun _ _ => 1) hd
        rw [← size_eq_sumBy, ← size_eq_sumBy] at hs
        omega
    · rename_i h
      exact Bool.eq_false_iff.mpr h

theorem expire_get? (h : (expireDetachedShells ledger now).1.get? k = some d) :
    ledger.get? k = some d ∧ graceOver now d = false := by
  have he := evictOldest_get? _ _ _ h
  rw [get?_filter, Option.filter_eq_some_iff] at he
  exact ⟨he.1, by simpa using he.2⟩

theorem expire_mem (h : d ∈ (expireDetachedShells ledger now).2) : ∃ k, ledger.get? k = some d := by
  rcases evictOldest_mem _ _ _ h with he | ⟨k, hk⟩
  · exact (mem_values_iff _ _).mp (mem_filter.mp he).1
  · rw [get?_filter, Option.filter_eq_some_iff] at hk
    exact ⟨k, hk.1⟩

theorem expire_sum (f : DetachedClientShells → Nat) : (expireDetachedShells ledger now).1.sumBy (fun _ d => f d) +
      ((expireDetachedShells ledger now).2.map f).sum = ledger.sumBy (fun _ d => f d) := by
  unfold expireDetachedShells
  rw [evictOldest_sum, Dict.sumBy_filter ledger _ (fun _ d => !graceOver now d)]
  simp only [Bool.not_not, Dict.sumBy, Dict.filter, Dict.values, filter_map, map_map]
  rfl

theorem expire_fits : overCapacity (expireDetachedShells ledger now).1 = false :=
  evictOldest_fits _ _ _ le_rfl

theorem evictOldest_of_fits (n : Nat) (orphaned : List DetachedClientShells)
    (h : overCapacity ledger = false) : evictOldest n ledger orphaned = (ledger, orphaned) := by
  cases n with
  | zero => rfl
  | succ n =>
    unfold evictOldest
    rw [if_neg (Bool.eq_false_iff.mp h)]

theorem fits_of_subset {ledger other : Ledger} (h : overCapacity ledger = false)
    (hs : ∀ k d, other.get? k = some d → ledger.get? k = some d) : overCapacity other = false := by
  have hsize := size_le_of_subset hs
  have hcou : shellCount other ≤ shellCount ledger := sumBy_le_of_subset hs _
  simp only [overCapacity, Bool.or_eq_false_iff, decide_eq_false_iff_not] at h ⊢
  omega

theorem expire_of_fits (h : overCapacity ledger = false) :
    (expireDetachedShells ledger now).2 = ledger.values.filter (graceOver now) := by
  unfold expireDetachedShells
  rw [evictOldest_of_fits]
  refine fits_of_subset h (fun k d hk => ?_)
  rw [get?_filter, Option.filter_eq_some_iff] at hk
  exact hk.1

end Expiry

end OpenAgent.Gateway.Capabilities
