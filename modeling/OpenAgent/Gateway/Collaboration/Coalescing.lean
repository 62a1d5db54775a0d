import OpenAgent.Gateway.Collaboration.Hub

namespace OpenAgent.Gateway.Collaboration

open Py List Table Dict

structure ResourceCall where
  resource : String
  action : String
  id : Option String
deriving DecidableEq

namespace Table

def publish (t : Table) (call : ResourceCall) : Table := t.invalidate call.resource call.action call.id

def Covers (t : Table) (resource : String) (id : Option String) : Prop :=
  (t.get? (resource, id)).isSome ∨ (t.get? (resource, none)).isSome

instance (t : Table) (resource : String) (id : Option String) : Decidable (t.Covers resource id) :=
  inferInstanceAs (Decidable (_ ∨ _))

def FullOfKind (t : Table) (call : ResourceCall) : Prop :=
  64 ≤ t.size → t.get? (call.resource, call.id) = none → ∀ k f, t.get? k = some f → k.1 = call.resource

theorem size_set (t : Table) (k : String × Option String) (f : ResourceFrame) :
    (t.set k f).size = if (t.get? k).isSome then t.size else t.size + 1 := by
  rw [size_eq_sumBy, sumBy_set, size_eq_sumBy]
  cases hk : t.get? k with
  | none => rw [erase_of_get?_none t hk, if_neg (by simp), Nat.add_comm]
  | some g => rw [if_pos (by simp), sumBy_erase t (fun _ _ => 1) hk]

theorem size_publish_le (t : Table) (call : ResourceCall) : (t.publish call).size ≤ 64 := by
  rw [publish, invalidate]
  split
  · rw [size_set, get?_empty]
    decide
  · rename_i h
    exact Nat.le_of_not_lt h

variable {t : Table}

theorem publish_cases (ht : t.size ≤ 64) (call : ResourceCall) :
    (∃ f, t.publish call = t.set (call.resource, call.id) f) ∨ (t.get? (call.resource, call.id) = none ∧ t.size = 64 ∧
        ∃ f, t.publish call = Dict.empty.set (call.resource, none) f) := by
  rw [publish, invalidate]
  split
  · rename_i h
    rw [size_set] at h
    split at h
    · omega
    · rename_i hk
      exact .inr ⟨by simpa using hk, by omega, _, rfl⟩
  · exact .inl ⟨_, rfl⟩

theorem covers_publish_self (ht : t.size ≤ 64) (call : ResourceCall) :
    (t.publish call).Covers call.resource call.id := by
  rcases publish_cases ht call with ⟨f, h⟩ | ⟨-, -, f, h⟩
  · left
    rw [h, get?_set_self]
    rfl
  right
  rw [h, get?_set_self]
  rfl

variable {resource : String} {id : Option String}

theorem covers_set (h : t.Covers resource id)
    (k : String × Option String) (f : ResourceFrame) : Covers (t.set k f) resource id := by
  have hkeep : ∀ j, (t.get? j).isSome → ((t.set k f).get? j).isSome := by
    intro j hj
    rw [get?_set]
    split
    · rfl
    · exact hj
  exact h.imp (hkeep _) (hkeep _)

theorem covers_single {f : ResourceFrame} {kind : String} :
    Covers (Dict.empty.set (resource, none) f) kind id ↔ kind = resource := by
  rw [Covers, get?_set, get?_set]
  constructor
  · rintro (h | h)
    · split at h
      · rename_i he
        exact (Prod.mk.inj he).1
      · cases h
    · split at h
      · rename_i he
        exact (Prod.mk.inj he).1
      · cases h
  rintro rfl
  right
  simp

theorem covers_publish (ht : t.size ≤ 64) {call : ResourceCall} (hfull : t.FullOfKind call)
    (h : t.Covers resource id) :
    (t.publish call).Covers resource id := by
  rcases publish_cases ht call with ⟨f, hp⟩ | ⟨hnone, hsize, f, hp⟩
  · rw [hp]
    exact covers_set h _ _
  rw [hp, covers_single]
  rcases h with h | h
  · obtain ⟨g, hg⟩ := Option.isSome_iff_exists.mp h
    exact hfull hsize.ge hnone _ g hg
  · obtain ⟨g, hg⟩ := Option.isSome_iff_exists.mp h
    exact hfull hsize.ge hnone _ g hg

def publishAll (t : Table) (calls : List ResourceCall) : Table := calls.foldl publish t

theorem publishAll_concat (t : Table) (calls : List ResourceCall) (call : ResourceCall) :
    t.publishAll (calls ++ [call]) = (t.publishAll calls).publish call := by
  rw [publishAll, foldl_append]
  rfl

theorem size_publishAll_le (calls : List ResourceCall) : (publishAll Dict.empty calls).size ≤ 64 := by
  cases calls using List.reverseRecOn with
  | nil => decide
  | append_singleton calls call =>
    rw [publishAll_concat]
    exact size_publish_le _ _

theorem mem_of_get?_publishAll {calls : List ResourceCall} {k : String × Option String} {f : ResourceFrame}
    (h : (publishAll Dict.empty calls).get? k = some f) : ∃ call ∈ calls, call.resource = k.1 := by
  induction calls using List.reverseRecOn generalizing f with
  | nil => cases h
  | append_singleton calls call ih =>
    rw [publishAll_concat] at h
    have hlast : k.1 = call.resource → ∃ c ∈ calls ++ [call], c.resource = k.1 :=
      fun hk => ⟨call, by simp, hk.symm⟩
    rcases publish_cases (size_publishAll_le calls) call with ⟨g, hp⟩ | ⟨-, -, g, hp⟩
    · rw [hp, get?_set] at h
      split at h
      · rename_i hk
        exact hlast (congrArg Prod.fst hk)
      · obtain ⟨c, hc, hr⟩ := ih h
        exact ⟨c, mem_append_left _ hc, hr⟩
    rw [hp, get?_set] at h
    split at h
    · rename_i hk
      exact hlast (congrArg Prod.fst hk)
    · cases h

end Table

namespace Hub

def publishAll (h : Hub) (calls : List ResourceCall) : Hub :=
  calls.foldl (fun h call => h.resource call.resource call.action call.id) h

theorem resources_publishAll (h : Hub) {c : ClientId} (hc : c ∈ h.clients) (calls : List ResourceCall) :
    ((h.publishAll calls).observer c).resources = (h.observer c).resources.publishAll calls := by
  induction calls generalizing h with
  | nil => rfl
  | cons call calls ih =>
    have hstep := ih (h.resource call.resource call.action call.id) hc
    rw [publishAll, Table.publishAll, foldl_cons, foldl_cons]
    rw [publishAll, Table.publishAll] at hstep
    rw [hstep, resource]
    simp only [if_pos hc]
    rfl

end Hub

/-- Every call since the table was drained stays covered, at every point of the sequence, if and only
if no call overflows a table that holds an entry of another kind. -/
theorem invalidations_covered_iff (h : Hub) {c : ClientId} (hc : c ∈ h.clients)
    (hdrained : (h.observer c).resources = Dict.empty) (calls : List ResourceCall) :
    (∀ done rest, calls = done ++ rest → ∀ call ∈ done,
      ((h.publishAll done).observer c).resources.Covers call.resource call.id) ↔
    (∀ done call rest, calls = done ++ call :: rest → ((h.publishAll done).observer c).resources.FullOfKind call) := by
  simp only [h.resources_publishAll hc, hdrained]
  constructor
  · intro hcov done call rest hcal hsize hnone k f hk
    obtain ⟨first, hfir, hkind⟩ := mem_of_get?_publishAll hk
    have hsti := hcov (done ++ [call]) rest (by simpa using hcal) first (mem_append_left _ hfir)
    rw [publishAll_concat] at hsti
    rcases publish_cases (size_publishAll_le done) call with ⟨g, hp⟩ | ⟨-, -, g, hp⟩
    · have hover := size_publish_le (publishAll empty done) call
      rw [hp, size_set, hnone, if_neg (by simp)] at hover
      omega
    · rw [hp, covers_single] at hsti
      exact hkind.symm.trans hsti
  intro hfull done
  induction done using List.reverseRecOn with
  | nil => intro _ _ call hcall; cases hcall
  | append_singleton done last ih =>
    intro rest hcal call hcall
    rw [append_assoc] at hcal
    rw [publishAll_concat]
    rcases mem_append.mp hcall with hcall | hcall
    · exact covers_publish (size_publishAll_le done) (hfull done last rest hcal) (ih _ hcal call hcall)
    · rw [mem_singleton.mp hcall]
      exact covers_publish_self (size_publishAll_le done) last

def oneClient : Hub := { Hub.empty with clients := [0] }

def chatCall (n : Nat) : ResourceCall := ⟨"session", "updated", some (toString n)⟩

/-- The first of sixty-five chats is still covered. -/
theorem invalidations_covered_chats : ((oneClient.publishAll ((List.range 65).map chatCall)).observer 0).resources.Covers
    (chatCall 0).resource (chatCall 0).id := by
  refine (invalidations_covered_iff oneClient (by decide) rfl ((List.range 65).map chatCall)).mpr ?_ _ []
    (append_nil _).symm _ (mem_map_of_mem (by decide))
  intro done call rest hcal _ _ k f hk
  have hchat : ∀ other ∈ done ++ call :: rest, other.resource = "session" := by
    intro other hoth
    rw [← hcal] at hoth
    obtain ⟨n, -, rfl⟩ := mem_map.mp hoth
    rfl
  rw [Hub.resources_publishAll oneClient (by decide)] at hk
  obtain ⟨first, hfir, hkind⟩ := mem_of_get?_publishAll hk
  rw [← hkind, hchat first (by simp [hfir]), hchat call (by simp)]

def workflowCall : ResourceCall := ⟨"workflow", "updated", some "nightly"⟩

/-- A workflow changes, and then sixty-four chats do. -/
theorem invalidation_lost : ¬ ∀ call ∈ workflowCall :: (List.range 64).map chatCall,
    ((oneClient.publishAll (workflowCall :: (List.range 64).map chatCall)).observer 0).resources.Covers
      call.resource call.id := by
  rw [Hub.resources_publishAll oneClient (by decide)]
  intro hcov
  exact absurd (hcov workflowCall mem_cons_self) (by decide +kernel)

end OpenAgent.Gateway.Collaboration
