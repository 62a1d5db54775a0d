import OpenAgent.Gateway.SessionQueueInvariants

namespace OpenAgent.Gateway.Sessions

open List Option Manager

variable {a : Nat}

section Begin

variable {s : Manager} {h : Nat} {x : Handler}

theorem begin_handlers (a : Nat) : (s.begin h false).handlers[a]? =
    s.handlers[a]?.map fun y => if h = a then { y with stage := .running } else y := by
  simp only [begin, setStage, Bool.false_eq_true, if_false, List.getElem?_modify]
  rfl

theorem begin_stage (ha : a ≠ h) : (s.begin h false).stage a = s.stage a := by
  rw [stage, begin_handlers, stage]
  cases s.handlers[a]? with
  | none => rfl
  | some y => simp [Ne.symm ha]

theorem begin_keyOf (a : Nat) : (s.begin h false).keyOf a = s.keyOf a := by
  rw [keyOf, begin_handlers, keyOf]
  cases s.handlers[a]? with
  | none => rfl
  | some y =>
    split <;> rfl

theorem begin_started : (s.begin h false).started = s.started ++ [h] := rfl

theorem begin_objects : (s.begin h false).objects = s.objects := rfl

theorem begin_live (hmade : s.stage h = some (.made false)) (state : SessionState) :
    (s.begin h false).live state = s.live state := by
  cases hw : state.worker with
  | idle | created _ => simp [live, hw]
  | awaiting a =>
    by_cases ha : a = h
    · subst ha
      have hrun : (s.begin a false).stage a = some .running := by
        obtain ⟨x, hx, _⟩ := of_stage hmade
        simp [stage, begin_handlers, hx]
      simp [live, hw, hrun, hmade]
    · simp [live, hw, begin_stage ha]

theorem begin_active (hmade : s.stage h = some (.made false)) {i : Nat} {state : SessionState} :
    Active (s.begin h false) i state ↔ Active s i state := by
  rw [Active, begin_live hmade]
  rfl

theorem sound_begin (hs : Sound s) (hmade : s.stage h = some (.made false)) : Sound (s.begin h false) where
  home a y hy := by
    rw [begin_handlers, map_eq_some_iff] at hy
    obtain ⟨x, hx, rfl⟩ := hy
    obtain ⟨state, hstate, hkey⟩ := hs.home a x hx
    split
    · exact ⟨state, hstate, hkey⟩
    · exact ⟨state, hstate, hkey⟩
  pending i state hi a ha := by
    obtain ⟨x, hx, hobj, hfre⟩ := hs.pending i state hi a ha
    have hne : h ≠ a := by
      intro heq
      subst heq
      rw [stage_of hx, hfre] at hmade
      cases hmade
    exact ⟨x, by simp [begin_handlers, hx, hne], hobj, hfre⟩
  sorted := hs.sorted
  awaiting i state a hi hw := by
    obtain ⟨⟨x, hx, hobj, hstage⟩, hbeh⟩ := hs.awaiting i state a hi hw
    refine ⟨?_, hbeh⟩
    by_cases heq : h = a
    · exact ⟨{ x with stage := .running }, by simp [begin_handlers, hx, heq], hobj, by simp⟩
    · exact ⟨x, by simp [begin_handlers, hx, heq], hobj, hstage⟩
  live a y hy hfre hend := by
    rw [begin_handlers, map_eq_some_iff] at hy
    obtain ⟨x, hx, rfl⟩ := hy
    by_cases heq : h = a
    · subst heq
      rw [stage_of hx, some_inj] at hmade
      simpa [begin_objects] using hs.live h x hx (by simp [hmade]) (by simp [hmade])
    · simp only [heq, if_false] at hfre hend ⊢
      exact hs.live a x hx hfre hend
  table := hs.table
  started a ha := by
    rcases mem_append.mp ha with hold | hnew
    · obtain ⟨x, hx, hbeg⟩ := hs.started a hold
      by_cases heq : h = a
      · exact ⟨{ x with stage := .running }, by simp [begin_handlers, hx, heq], .inl rfl⟩
      · exact ⟨x, by simp [begin_handlers, hx, heq], hbeg⟩
    obtain ⟨x, hx, _⟩ := of_stage hmade
    rw [mem_singleton.mp hnew]
    exact ⟨{ x with stage := .running }, by simp [begin_handlers, hx], .inl rfl⟩
  own entry hent := by
    rw [begin_keyOf]
    exact hs.own entry hent

theorem kept_begin (hs : Sound s) (hk : Kept s) (hmade : s.stage h = some (.made false)) : Kept (s.begin h false) := by
  obtain ⟨x, hx, hstage⟩ := of_stage hmade
  obtain ⟨state, hstate, hw⟩ := hs.live h x hx (by simp [hstage]) (by simp [hstage])
  have hkey : s.keyOf h = some state.key := keyOf_awaiting hs hstate hw
  have hact : Active s x.object state := .inl (live_awaiting hw (.inl hmade))
  refine ⟨?_, ?_, ?_, ?_⟩
  · intro i j a b ha hb hab hia hjb
    exact hk.single i j a b ha hb hab ((begin_active hmade).mp hia) ((begin_active hmade).mp hjb)
  · intro key
    simp only [begin_keyOf, begin_started, filter_append]
    by_cases hsame : s.keyOf h = some key
    · rw [filter_cons_of_pos (by simp [hsame]), filter_nil, pairwise_append]
      refine ⟨hk.ordered key, by simp, fun a ha b hb => ?_⟩
      obtain ⟨hsta, hakey⟩ := mem_filter.mp ha
      rw [mem_singleton.mp hb]
      refine (hk.ahead _ state hstate hact a hsta ?_).2 h hw hmade
      rw [← hkey, hsame]
      simpa using hakey
    · rw [filter_cons_of_neg (by simp [hsame]), filter_nil, append_nil]
      exact hk.ordered key
  · intro i other hi hoth a ha hakey
    rw [begin_keyOf] at hakey
    have hold := (begin_active hmade).mp hoth
    have hnot : ∀ b, other.worker = .awaiting b → (s.begin h false).stage b = some (.made false) →
        s.stage b = some (.made false) := by
      intro b hb hb'
      have hne : b ≠ h := by
        intro heq
        subst heq
        simp [stage, begin_handlers, hx] at hb'
      rw [← begin_stage hne, hb']
    rcases mem_append.mp ha with hsta | hnew
    · obtain ⟨hpen, hcur⟩ := hk.ahead i other hi hold a hsta hakey
      exact ⟨hpen, fun b hb hb' => hcur b hb (hnot b hb hb')⟩
    rw [mem_singleton.mp hnew] at hakey ⊢
    have hij := hk.single i x.object other state hi hstate
      (by rw [hkey, some_inj] at hakey; exact hakey.symm) hold hact
    rw [hij, begin_objects, hstate, some_inj] at hi
    subst hi
    refine ⟨(hs.awaiting _ state h hstate hw).2, fun b hb hb' => ?_⟩
    rw [hw, Worker.awaiting.injEq] at hb
    subst hb
    simp [stage, begin_handlers, hx] at hb'
  · intro d hd
    obtain ⟨hfre, hsti⟩ := hk.silent d hd
    refine ⟨?_, hsti⟩
    rw [begin_stage, hfre]
    intro heq
    subst heq
    rw [hfre] at hmade
    cases hmade

end Begin

variable {b : SessionState} {j : Nat}

section Take

variable {s : Manager} {i h : Nat} {state : SessionState} {rest : List Nat}

theorem ne_of_objects {x y : Handler} (hx : s.handlers[h]? = some x) (hy : s.handlers[a]? = some y)
    (hne : x.object ≠ y.object) : a ≠ h := by
  rintro rfl
  rw [hx, some_inj] at hy
  exact hne (by rw [hy])

theorem awaiting_ne (hs : Sound s) (hi : s.objects[i]? = some state)
    (hj : s.objects[j]? = some b) (hij : i ≠ j) (hpen : h ∈ state.pending) (hw : b.worker = .awaiting a) : a ≠ h := by
  obtain ⟨x, hx, hobj, _⟩ := hs.pending i state hi h hpen
  obtain ⟨⟨y, hy, hyob, _⟩, _⟩ := hs.awaiting j b a hj hw
  exact ne_of_objects hx hy (by rwa [hobj, hyob])

theorem take_handlers (a : Nat) : (s.take i h rest state).handlers[a]? =
    s.handlers[a]?.map fun y => if h = a then { y with stage := .made false } else y := by
  simp only [Manager.take, Manager.setObject, Manager.setStage, List.getElem?_modify]
  rfl

theorem take_stage (ha : a ≠ h) : (s.take i h rest state).stage a = s.stage a := by
  rw [stage, take_handlers, stage]
  cases s.handlers[a]? with
  | none => rfl
  | some y => simp [Ne.symm ha]

theorem take_keyOf (a : Nat) : (s.take i h rest state).keyOf a = s.keyOf a := by
  rw [keyOf, take_handlers, keyOf]
  cases s.handlers[a]? with
  | none => rfl
  | some y =>
    split <;> rfl

theorem take_object_self (hi : s.objects[i]? = some state) :
    (s.take i h rest state).objects[i]? = some { state with pending := rest, worker := .awaiting h } :=
  List.getElem?_set_self (List.getElem?_eq_some_iff.mp hi).1

theorem take_object_ne (hij : i ≠ j) : (s.take i h rest state).objects[j]? = s.objects[j]? :=
  List.getElem?_set_ne hij

theorem take_object_cases (hi : s.objects[i]? = some state) (hb : (s.take i h rest state).objects[j]? = some b) :
    (i = j ∧ b = { state with pending := rest, worker := .awaiting h }) ∨ (i ≠ j ∧ s.objects[j]? = some b) := by
  by_cases hij : i = j
  · subst hij
    rw [take_object_self hi, some_inj] at hb
    exact .inl ⟨rfl, hb.symm⟩
  · rw [take_object_ne hij] at hb
    exact .inr ⟨hij, hb⟩

theorem sound_take (hs : Sound s) (hi : s.objects[i]? = some state) (hpen : state.pending = h :: rest)
    (hfree : ∀ a, state.worker = .awaiting a → s.stage a = some .ended) : Sound (s.take i h rest state) := by
  obtain ⟨x, hx, hobj, hfre⟩ := hs.pending i state hi h (by simp [hpen])
  have hsor := hs.sorted i state hi
  rw [hpen, pairwise_cons] at hsor
  have hoth : ∀ a ≠ h, ∀ y, s.handlers[a]? = some y → (s.take i h rest state).handlers[a]? = some y := by
    intro a ha y hy
    simp [take_handlers, hy, Ne.symm ha]
  have hself : (s.take i h rest state).handlers[h]? = some { x with stage := .made false } := by
    simp [take_handlers, hx]
  have hhome : ∀ y : Handler, ∀ o, s.objects[y.object]? = some o →
      ∃ o', (s.take i h rest state).objects[y.object]? = some o' ∧ o'.key = o.key := by
    intro y o ho
    by_cases hij : i = y.object
    · rw [← hij, hi, some_inj] at ho
      rw [← hij]
      exact ⟨_, take_object_self hi, by rw [← ho]⟩
    · exact ⟨o, by rw [take_object_ne hij, ho], rfl⟩
  refine ⟨?_, ?_, ?_, ?_, ?_, ?_, ?_, ?_⟩
  · intro a y hy
    rw [take_handlers, map_eq_some_iff] at hy
    obtain ⟨y', hy', rfl⟩ := hy
    obtain ⟨o, ho, hkey⟩ := hs.home a y' hy'
    obtain ⟨o', ho', hkey'⟩ := hhome y' o ho
    refine ⟨o', ?_, ?_⟩
    · split <;> exact ho'
    · split <;> rw [hkey', hkey]
  · intro j b hb a ha
    rcases take_object_cases hi hb with ⟨rfl, rfl⟩ | ⟨hij, hold⟩
    · obtain ⟨y, hy, hrest⟩ := hs.pending i state hi a (by rw [hpen]; exact mem_cons_of_mem _ ha)
      exact ⟨y, hoth a (Nat.ne_of_gt (hsor.1 a ha)) y hy, hrest⟩
    · obtain ⟨y, hy, hyob, hyfr⟩ := hs.pending j b hold a ha
      exact ⟨y, hoth a (ne_of_objects hx hy (by rwa [hobj, hyob])) y hy, hyob, hyfr⟩
  · intro j b hb
    rcases take_object_cases hi hb with ⟨rfl, rfl⟩ | ⟨_, hold⟩
    · exact hsor.2
    · exact hs.sorted j b hold
  · intro j b a hb hw
    rcases take_object_cases hi hb with ⟨rfl, rfl⟩ | ⟨hij, hold⟩
    · rw [Worker.awaiting.injEq] at hw
      subst hw
      exact ⟨⟨_, hself, hobj, by simp⟩, hsor.1⟩
    · obtain ⟨⟨y, hy, hyob, hyst⟩, hbeh⟩ := hs.awaiting j b a hold hw
      exact ⟨⟨y, hoth a (ne_of_objects hx hy (by rwa [hobj, hyob])) y hy, hyob, hyst⟩, hbeh⟩
  · intro a y hy hyfr hyen
    by_cases ha : a = h
    · subst ha
      rw [hself, some_inj] at hy
      subst hy
      exact ⟨_, by rw [hobj]; exact take_object_self hi, rfl⟩
    rw [take_handlers, map_eq_some_iff] at hy
    obtain ⟨y', hy', rfl⟩ := hy
    simp only [Ne.symm ha, if_false] at hyfr hyen ⊢
    obtain ⟨o, ho, hw⟩ := hs.live a y' hy' hyfr hyen
    refine ⟨o, ?_, hw⟩
    rw [take_object_ne, ho]
    intro hij
    rw [← hij, hi, some_inj] at ho
    rw [← ho] at hw
    have hend := hfree a hw
    rw [stage_of hy', some_inj] at hend
    exact hyen hend
  · intro key j hj
    obtain ⟨o, ho, hkey⟩ := hs.table key j hj
    by_cases hij : i = j
    · subst hij
      rw [hi, some_inj] at ho
      exact ⟨_, take_object_self hi, by rw [← hkey, ← ho]⟩
    · exact ⟨o, by rw [take_object_ne hij, ho], hkey⟩
  · intro a ha
    obtain ⟨y, hy, hbeg⟩ := hs.started a ha
    refine ⟨y, hoth a ?_ y hy, hbeg⟩
    rintro rfl
    rw [hx, some_inj] at hy
    rw [← hy, hfre] at hbeg
    rcases hbeg with hb | hb <;> cases hb
  · intro entry hent
    rw [take_keyOf]
    exact hs.own entry hent

theorem take_active (hs : Sound s) (hi : s.objects[i]? = some state) (hpen : state.pending = h :: rest)
    (hdra : state.draining = true)
    (hb : (s.take i h rest state).objects[j]? = some b) (hact : Active (s.take i h rest state) j b) :
    ∃ a, s.objects[j]? = some a ∧ a.key = b.key ∧ Active s j a := by
  rcases take_object_cases hi hb with ⟨rfl, rfl⟩ | ⟨hij, hold⟩
  · exact ⟨state, hi, rfl, .inr ⟨by simp [hpen], .inr hdra⟩⟩
  refine ⟨b, hold, rfl, ?_⟩
  rcases hact with hlive | hser
  · obtain ⟨a, hw, hstage⟩ := live_of hlive
    refine .inl (live_awaiting hw ?_)
    rw [← take_stage (awaiting_ne (h := h) hs hi hold hij (by simp [hpen]) hw)]
    exact hstage
  · exact .inr hser

theorem kept_take (hs : Sound s) (hk : Kept s) (hi : s.objects[i]? = some state) (hpen : state.pending = h :: rest)
    (hdra : state.draining = true) : Kept (s.take i h rest state) := by
  have hact : Active s i state := .inr ⟨by simp [hpen], .inr hdra⟩
  refine ⟨?_, ?_, ?_, ?_⟩
  · intro j k b c hb hc hkey hjb hkc
    obtain ⟨b', hb', hbkey, hbac⟩ := take_active hs hi hpen hdra hb hjb
    obtain ⟨c', hc', hckey, hcac⟩ := take_active hs hi hpen hdra hc hkc
    exact hk.single j k b' c' hb' hc' (by rw [hbkey, hckey, hkey]) hbac hcac
  · intro key
    simp only [take_keyOf]
    exact hk.ordered key
  · intro j b hb hjb a ha hkey
    rw [take_keyOf] at hkey
    rcases take_object_cases hi hb with ⟨rfl, rfl⟩ | ⟨hij, hold⟩
    · have hbef := (hk.ahead i state hi hact a ha hkey).1
      rw [hpen] at hbef
      refine ⟨fun p hp => hbef p (mem_cons_of_mem _ hp), fun c hc _ => ?_⟩
      rw [Worker.awaiting.injEq] at hc
      rw [← hc]
      exact hbef h mem_cons_self
    obtain ⟨b', hb', _, hbac⟩ := take_active hs hi hpen hdra hb hjb
    rw [hold, some_inj] at hb'
    subst hb'
    obtain ⟨hbef, hmade⟩ := hk.ahead j b hold hbac a ha hkey
    refine ⟨hbef, fun c hc hstage => hmade c hc ?_⟩
    rw [← take_stage (awaiting_ne (h := h) hs hi hold hij (by simp [hpen]) hc)]
    exact hstage
  · intro d hd
    obtain ⟨hfre, hsti⟩ := hk.silent d hd
    have hnot : d ∉ state.pending := by
      intro hmem
      rw [hsti i state hi hmem] at hdra
      cases hdra
    refine ⟨?_, fun j b hb hmem => ?_⟩
    · rw [take_stage, hfre]
      rintro rfl
      exact hnot (by simp [hpen])
    rcases take_object_cases hi hb with ⟨rfl, rfl⟩ | ⟨_, hold⟩
    · exact absurd (by rw [hpen]; exact mem_cons_of_mem _ hmem) hnot
    · exact hsti j b hold hmem

end Take

section Enqueue

variable {s : Manager} {i : Nat} {state : SessionState} {key : Key}

theorem register_object_cases (hb : (s.register key).objects[j]? = some b) :
    s.objects[j]? = some b ∨ (j = s.objects.length ∧ b = { key := key }) := by
  simp only [register, List.getElem?_append] at hb
  split at hb
  case isTrue => exact .inl hb
  case isFalse hlen =>
    right
    have hj := (List.getElem?_eq_some_iff.mp hb).1
    simp only [length_singleton] at hj
    refine ⟨by omega, ?_⟩
    have hzero : j - s.objects.length = 0 := by omega
    rw [hzero] at hb
    simpa using hb.symm

theorem register_object_old (hb : s.objects[j]? = some b) : (s.register key).objects[j]? = some b := by
  rw [register, List.getElem?_append_left (List.getElem?_eq_some_iff.mp hb).1, hb]

theorem sound_register (hs : Sound s) : Sound (s.register key) where
  home h x hx := by
    obtain ⟨b, hb, hkey⟩ := hs.home h x hx
    exact ⟨b, register_object_old hb, hkey⟩
  pending j b hb h hh := by
    rcases register_object_cases hb with hold | ⟨_, rfl⟩
    · exact hs.pending j b hold h hh
    · cases hh
  sorted j b hb := by
    rcases register_object_cases hb with hold | ⟨_, rfl⟩
    · exact hs.sorted j b hold
    · exact List.Pairwise.nil
  awaiting j b h hb hw := by
    rcases register_object_cases hb with hold | ⟨_, rfl⟩
    · exact hs.awaiting j b h hold hw
    · cases hw
  live h x hx hfre hend := by
    obtain ⟨b, hb, hw⟩ := hs.live h x hx hfre hend
    exact ⟨b, register_object_old hb, hw⟩
  table k j hj := by
    simp only [register] at hj
    split at hj
    case isTrue heq =>
      rw [some_inj] at hj
      exact ⟨{ key := key }, by simp [register, ← hj], heq.symm⟩
    case isFalse =>
      obtain ⟨b, hb, hkey⟩ := hs.table k j hj
      exact ⟨b, register_object_old hb, hkey⟩
  started := hs.started
  own := hs.own

theorem register_registered (hnone : s.states key = none) (hb : s.objects[j]? = some b) :
    (s.register key).registered j b = s.registered j b := by
  have hj := (List.getElem?_eq_some_iff.mp hb).1
  simp only [registered, register]
  by_cases hkey : b.key = key
  · simp [hkey, hnone, Nat.ne_of_gt hj]
  · simp [hkey]

theorem register_active (hnone : s.states key = none)
    (hb : (s.register key).objects[j]? = some b) (hact : Active (s.register key) j b) :
    s.objects[j]? = some b ∧ Active s j b := by
  rcases register_object_cases hb with hold | ⟨_, rfl⟩
  · refine ⟨hold, ?_⟩
    rw [Active, register_registered hnone hold] at hact
    exact hact
  rcases hact with hlive | ⟨hpen, _⟩
  · obtain ⟨h, hw, _⟩ := live_of hlive
    cases hw
  · exact absurd rfl hpen

theorem kept_register (hk : Kept s) (hnone : s.states key = none) : Kept (s.register key) where
  single j k b c hb hc hkey hjb hkc := by
    obtain ⟨hb', hjb'⟩ := register_active hnone hb hjb
    obtain ⟨hc', hkc'⟩ := register_active hnone hc hkc
    exact hk.single j k b c hb' hc' hkey hjb' hkc'
  ordered := hk.ordered
  ahead j b hb hjb := by
    obtain ⟨hb', hjb'⟩ := register_active hnone hb hjb
    exact hk.ahead j b hb' hjb'
  silent d hd := by
    refine ⟨(hk.silent d hd).1, fun j b hb hmem => ?_⟩
    rcases register_object_cases hb with hold | ⟨_, rfl⟩
    · exact (hk.silent d hd).2 j b hold hmem
    · cases hmem

theorem put_handler_old {x : Handler} (hx : s.handlers[a]? = some x) : (s.put i state).handlers[a]? = some x := by
  rw [put, List.getElem?_append_left (List.getElem?_eq_some_iff.mp hx).1, hx]

theorem put_handler_new : (s.put i state).handlers[s.handlers.length]? = some { key := state.key, object := i } := by
  simp [put]

theorem put_handler_cases {y : Handler} (hy : (s.put i state).handlers[a]? = some y) :
    s.handlers[a]? = some y ∨ (a = s.handlers.length ∧ y = { key := state.key, object := i }) := by
  by_cases ha : a < s.handlers.length
  · rw [put, List.getElem?_append_left ha] at hy
    exact .inl hy
  have hlen := (List.getElem?_eq_some_iff.mp hy).1
  simp only [put, length_append, length_singleton] at hlen
  have heq : a = s.handlers.length := by omega
  rw [heq, put_handler_new, some_inj] at hy
  exact .inr ⟨heq, hy.symm⟩

theorem put_stage {st : Stage} (hst : st ≠ .fresh) : (s.put i state).stage a = some st ↔ s.stage a = some st := by
  constructor
  · intro h
    obtain ⟨y, hy, rfl⟩ := of_stage h
    rcases put_handler_cases hy with hold | ⟨_, rfl⟩
    · exact stage_of hold
    · exact absurd rfl hst
  intro h
  obtain ⟨x, hx, rfl⟩ := of_stage h
  exact stage_of (put_handler_old hx)

theorem put_live (b : SessionState) : (s.put i state).live b = s.live b := by
  cases hw : b.worker with
  | idle | created _ => simp [live, hw]
  | awaiting h => simp [live, hw, put_stage]

theorem put_object_self (hi : s.objects[i]? = some state) :
    (s.put i state).objects[i]? = some (state.accept s.handlers.length) :=
  List.getElem?_set_self (List.getElem?_eq_some_iff.mp hi).1

theorem put_object_ne (hij : i ≠ j) : (s.put i state).objects[j]? = s.objects[j]? := List.getElem?_set_ne hij

theorem put_object_cases (hi : s.objects[i]? = some state) (hb : (s.put i state).objects[j]? = some b) :
    (i = j ∧ b = state.accept s.handlers.length) ∨ (i ≠ j ∧ s.objects[j]? = some b) := by
  by_cases hij : i = j
  · subst hij
    rw [put_object_self hi, some_inj] at hb
    exact .inl ⟨rfl, hb.symm⟩
  · rw [put_object_ne hij] at hb
    exact .inr ⟨hij, hb⟩

theorem accept_awaiting {h n : Nat} : (state.accept n).worker = .awaiting h ↔ state.worker = .awaiting h := by
  simp only [SessionState.accept]
  split
  case isTrue hidle => simp [hidle]
  case isFalse => rfl

theorem accept_draining {n : Nat} (hdra : (state.accept n).draining = true) :
    state.draining = true ∨ state.worker = .idle := by
  by_cases hidle : state.worker = .idle
  · exact .inr hidle
  · left
    simpa [SessionState.draining, SessionState.accept, hidle] using hdra

theorem sound_put (hs : Sound s) (hi : s.objects[i]? = some state) : Sound (s.put i state) := by
  have hkeep : ∀ (j : Nat) (b : SessionState), s.objects[j]? = some b → ∃ b', (s.put i state).objects[j]? = some b' ∧ b'.key = b.key ∧
      ∀ h, b'.worker = .awaiting h ↔ b.worker = .awaiting h := by
    intro j b hb
    by_cases hij : i = j
    · subst hij
      rw [hi, some_inj] at hb
      subst hb
      exact ⟨_, put_object_self hi, rfl, fun h => accept_awaiting⟩
    · exact ⟨b, by rw [put_object_ne hij, hb], rfl, fun h => Iff.rfl⟩
  have hbel : ∀ (j : Nat) (b : SessionState), s.objects[j]? = some b → ∀ p ∈ b.pending, p < s.handlers.length := by
    intro j b hb p hp
    obtain ⟨x, hx, _⟩ := hs.pending j b hb p hp
    exact (List.getElem?_eq_some_iff.mp hx).1
  refine ⟨?_, ?_, ?_, ?_, ?_, ?_, ?_, ?_⟩
  · intro a y hy
    rcases put_handler_cases hy with hold | ⟨_, rfl⟩
    · obtain ⟨b, hb, hkey⟩ := hs.home a y hold
      obtain ⟨b', hb', hkey', _⟩ := hkeep _ b hb
      exact ⟨b', hb', by rw [hkey', hkey]⟩
    · exact ⟨_, put_object_self hi, rfl⟩
  · intro j b hb a ha
    rcases put_object_cases hi hb with ⟨rfl, rfl⟩ | ⟨_, hold⟩
    · rcases mem_append.mp ha with hin | hnew
      · obtain ⟨x, hx, hrest⟩ := hs.pending i state hi a hin
        exact ⟨x, put_handler_old hx, hrest⟩
      · rw [mem_singleton.mp hnew]
        exact ⟨_, put_handler_new, rfl, rfl⟩
    · obtain ⟨x, hx, hrest⟩ := hs.pending j b hold a ha
      exact ⟨x, put_handler_old hx, hrest⟩
  · intro j b hb
    rcases put_object_cases hi hb with ⟨rfl, rfl⟩ | ⟨_, hold⟩
    · refine pairwise_append.mpr ⟨hs.sorted i state hi, by simp, fun p hp q hq => ?_⟩
      rw [mem_singleton.mp hq]
      exact hbel i state hi p hp
    · exact hs.sorted j b hold
  · intro j b h hb hw
    rcases put_object_cases hi hb with ⟨rfl, rfl⟩ | ⟨_, hold⟩
    · obtain ⟨⟨x, hx, hrest⟩, hbeh⟩ := hs.awaiting i state h hi (accept_awaiting.mp hw)
      refine ⟨⟨x, put_handler_old hx, hrest⟩, fun p hp => ?_⟩
      rcases mem_append.mp hp with hin | hnew
      · exact hbeh p hin
      · rw [mem_singleton.mp hnew]
        exact (List.getElem?_eq_some_iff.mp hx).1
    · obtain ⟨⟨x, hx, hrest⟩, hbeh⟩ := hs.awaiting j b h hold hw
      exact ⟨⟨x, put_handler_old hx, hrest⟩, hbeh⟩
  · intro a y hy hfre hend
    rcases put_handler_cases hy with hold | ⟨_, rfl⟩
    · obtain ⟨b, hb, hw⟩ := hs.live a y hold hfre hend
      obtain ⟨b', hb', _, hsame⟩ := hkeep _ b hb
      exact ⟨b', hb', (hsame a).mpr hw⟩
    · exact absurd rfl hfre
  · intro k j hj
    obtain ⟨b, hb, hkey⟩ := hs.table k j hj
    obtain ⟨b', hb', hkey', _⟩ := hkeep j b hb
    exact ⟨b', hb', by rw [hkey', hkey]⟩
  · intro a ha
    obtain ⟨x, hx, hbeg⟩ := hs.started a ha
    exact ⟨x, put_handler_old hx, hbeg⟩
  · intro entry hent
    have hkey := hs.own entry hent
    rw [keyOf, map_eq_some_iff] at hkey
    obtain ⟨x, hx, hxkey⟩ := hkey
    rw [keyOf_of (put_handler_old hx), hxkey]

theorem busy_of_active (hact : Active s i state) (hreg : s.registered i state = false) : s.busy state = true := by
  rcases hact with hlive | ⟨hpen, hser⟩
  · simp [busy, hlive]
  · simp [hreg] at hser
    simp [busy, hser, hpen]

theorem put_keyOf (ha : a < s.handlers.length) : (s.put i state).keyOf a = s.keyOf a := by
  rw [keyOf, put, List.getElem?_append_left ha, keyOf]

theorem kept_put (hs : Sound s) (hk : Kept s) (hi : s.objects[i]? = some state) (hreg : s.registered i state = true)
    (hset : s.Settled state.key) (hfre : s.Fresh state.key) : Kept (s.put i state) := by
  have hbeg : ∀ a ∈ s.started, a < s.handlers.length := by
    intro a ha
    obtain ⟨x, hx, _⟩ := hs.started a ha
    exact (List.getElem?_eq_some_iff.mp hx).1
  have halo : ∀ (j : Nat) (b : SessionState), i ≠ j → s.objects[j]? = some b → b.key = state.key → ¬ Active s j b := by
    intro j b hij hb hkey hact
    have hlost : s.registered j b = false := by
      simp only [registered, decide_eq_true_eq, decide_eq_false_iff_not, hkey] at hreg ⊢
      rw [hreg, some_inj]
      exact hij
    have hbusy := hset (b, j) (mem_zipIdx_iff_getElem?.mpr hb) hkey hlost
    rw [busy_of_active hact hlost] at hbusy
    cases hbusy
  have hold : ∀ (j : Nat) (b : SessionState), s.objects[j]? = some b → Active (s.put i state) j b → Active s j b := by
    intro j b _ hact
    rw [Active, put_live] at hact
    exact hact
  refine ⟨?_, ?_, ?_, ?_⟩
  · intro j k b c hb hc hkey hjb hkc
    rcases put_object_cases hi hb with ⟨rfl, rfl⟩ | ⟨hij, hb'⟩
    · rcases put_object_cases hi hc with ⟨rfl, _⟩ | ⟨hik, hc'⟩
      · rfl
      · exact absurd (hold k c hc' hkc) (halo k c hik hc' hkey.symm)
    rcases put_object_cases hi hc with ⟨rfl, rfl⟩ | ⟨_, hc'⟩
    · exact absurd (hold j b hb' hjb) (halo j b hij hb' hkey)
    · exact hk.single j k b c hb' hc' hkey (hold j b hb' hjb) (hold k c hc' hkc)
  · intro key'
    have hfil : s.started.filter (fun h => (s.put i state).keyOf h == some key') =
        s.started.filter fun h => s.keyOf h == some key' :=
      filter_congr fun a ha => by rw [put_keyOf (hbeg a ha)]
    show (s.started.filter fun h => (s.put i state).keyOf h == some key').Pairwise (· < ·)
    rw [hfil]
    exact hk.ordered key'
  · intro j b hb hjb a ha hkey
    rw [put_keyOf (hbeg a ha)] at hkey
    rcases put_object_cases hi hb with ⟨rfl, rfl⟩ | ⟨_, hb'⟩
    · refine ⟨fun p hp => ?_, fun h hw hmade => ?_⟩
      · rcases mem_append.mp hp with hin | hnew
        · exact (hk.ahead i state hi (.inr ⟨ne_nil_of_mem hin, .inl hreg⟩) a ha hkey).1 p hin
        · rw [mem_singleton.mp hnew]
          exact hbeg a ha
      · have hw' := accept_awaiting.mp hw
        have hmade' := (put_stage (by simp)).mp hmade
        exact (hk.ahead i state hi (.inl (live_awaiting hw' (.inl hmade'))) a ha hkey).2 h hw' hmade'
    · obtain ⟨hbef, hmade⟩ := hk.ahead j b hb' (hold j b hb' hjb) a ha hkey
      exact ⟨hbef, fun h hw hstage => hmade h hw ((put_stage (by simp)).mp hstage)⟩
  · intro d hd
    obtain ⟨hstage, hsti⟩ := hk.silent d hd
    obtain ⟨x, hx, hxs⟩ := of_stage hstage
    refine ⟨by rw [stage_of (put_handler_old hx), hxs], fun j b hb hmem => ?_⟩
    rcases put_object_cases hi hb with ⟨rfl, rfl⟩ | ⟨_, hb'⟩
    · have hin : d ∈ state.pending := by
        refine (mem_append.mp hmem).resolve_right fun hnew => ?_
        have hlt := (List.getElem?_eq_some_iff.mp hx).1
        rw [mem_singleton.mp hnew] at hlt
        exact Nat.lt_irrefl _ hlt
      cases hdra : (state.accept s.handlers.length).draining with
      | false => rfl
      | true =>
        rcases accept_draining hdra with h | hidle
        · rw [hsti i state hi hin] at h
          cases h
        · exact absurd hd (hfre (state, i) (mem_zipIdx_iff_getElem?.mpr hi) rfl hreg hidle d hin)
    · exact hsti j b hb' hmem

theorem held_put (hs : Held s) (hi : s.objects[i]? = some state) (hreg : s.registered i state = true)
    (hset : s.Settled state.key) (hfre : s.Fresh state.key) : Held (s.put i state) :=
  ⟨sound_put hs.1 hi, kept_put hs.1 hs.2 hi hreg hset hfre⟩

theorem register_settled (hnone : s.states key = none) (hset : s.Settled key) : (s.register key).Settled key := by
  intro entry hent hkey hlost
  have hobj := mem_zipIdx_iff_getElem?.mp hent
  rcases register_object_cases hobj with hold | ⟨_, hnew⟩
  · rw [register_registered hnone hold] at hlost
    exact hset entry (mem_zipIdx_iff_getElem?.mpr hold) hkey hlost
  · rw [hnew]
    rfl

theorem register_fresh (hnone : s.states key = none) (hfre : s.Fresh key) : (s.register key).Fresh key := by
  intro entry hent hkey hreg hidle
  have hobj := mem_zipIdx_iff_getElem?.mp hent
  rcases register_object_cases hobj with hold | ⟨_, hnew⟩
  · rw [register_registered hnone hold] at hreg
    exact hfre entry (mem_zipIdx_iff_getElem?.mpr hold) hkey hreg hidle
  · simp [hnew]

theorem held_enqueue {client : String} {session : Option String} (hs : Held s)
    (hspa : Spared s (.enqueue client session)) : Held (s.enqueue client session).1 := by
  unfold enqueue sessionState
  cases hsta : s.states (sessionKey client session) with
  | some i =>
    obtain ⟨state, hi, hkey⟩ := hs.1.table _ i hsta
    simp only [enqueueAt, hi]
    split
    · exact hs
    case isFalse hroom =>
      have hacc : s.accepts (sessionKey client session) = true := by
        simpa [accepts, hsta, hi] using hroom
      obtain ⟨hset, hfre⟩ := hspa hacc
      rw [← hkey] at hset hfre
      exact held_put hs hi (by simp [registered, hkey, hsta]) hset hfre
  | none =>
    have hi : (s.register (sessionKey client session)).objects[s.objects.length]? =
        some { key := sessionKey client session } := by simp [register]
    simp only [enqueueAt, hi]
    obtain ⟨hset, hfre⟩ := hspa (by simp [accepts, hsta])
    exact held_put ⟨sound_register hs.1, kept_register hs.2 hsta⟩ hi (by simp [registered, register])
      (register_settled hsta hset) (register_fresh hsta hfre)

end Enqueue

section Steps

variable {s t : Manager} {e : Event} {i h : Nat} {state : SessionState}

theorem held_return (hs : Held s) (hi : s.objects[i]? = some state)
    (hfree : ∀ a, state.worker = .awaiting a → s.stage a = some .ended) :
    Held (s.setObject i { state with worker := .idle }) := by
  have hwan : Wanes s state { state with worker := .idle } := ⟨rfl, List.Sublist.refl _, .inr (.inr ⟨rfl, hfree⟩)⟩
  exact (subsides_setObject hi hwan).held hs

theorem held_drain (hs : Held s) (hi : s.objects[i]? = some state) (hdra : state.draining = true)
    (hfree : ∀ a, state.worker = .awaiting a → s.stage a = some .ended) : Held (s.drain i state) := by
  unfold drain
  split
  case h_1 => exact held_return hs hi hfree
  case h_2 h rest hpen =>
    exact ⟨sound_take hs.1 hi hpen hfree, kept_take hs.1 hs.2 hi hpen hdra⟩

theorem held_workerStep (hs : Held s) (hi : s.objects[i]? = some state) (h : s.workerStep i state = some t) : Held t := by
  unfold workerStep at h
  cases hw : state.worker with
  | idle => simp [hw] at h
  | created cancelled =>
    simp only [hw, some_inj] at h
    subst h
    cases cancelled with
    | true =>
      refine held_return hs hi fun a ha => ?_
      rw [hw] at ha
      cases ha
    | false =>
      refine held_drain hs hi (by simp [SessionState.draining, hw]) fun a ha => ?_
      rw [hw] at ha
      cases ha
  | awaiting a =>
    simp only [hw] at h
    obtain ⟨hend, h⟩ := ite_none_right_eq_some.mp h
    rw [some_inj] at h
    subst h
    refine held_drain hs hi (by simp [SessionState.draining, hw]) fun b hb => ?_
    rw [hw, Worker.awaiting.injEq] at hb
    rw [← hb, hend]

theorem held_begin {cancelled : Bool} (hs : Held s) (hmade : s.stage h = some (.made cancelled)) :
    Held (s.begin h cancelled) := by
  cases cancelled with
  | true =>
    obtain ⟨x, hx, hstage⟩ := of_stage hmade
    exact (subsides_setStage hx (by rw [hstage]; exact .unrun true)).held hs
  | false => exact ⟨sound_begin hs.1 hmade, kept_begin hs.1 hs.2 hmade⟩

theorem only_key {key k : Key} (h : (k == key) = true) : k = key := by simpa using h

theorem held_stopCurrent (hs : Held s) (client : String) (session : Option String) :
    Held (s.stopCurrent client session).1 := by
  cases session with
  | none => exact held_cancelCurrent hs _
  | some sid =>
    refine held_note (held_cancelCurrent hs _) fun d hd => ?_
    rw [cancelCurrent, (subsides_cancelHandlers s _).keyOf]
    exact keyOf_currents hs.1 (fun _ => only_key) d hd

section Removal

variable {scope : Key → Bool}

theorem subsides_cancelCurrent (s : Manager) (scope : Key → Bool) : Subsides s (s.cancelCurrent scope) :=
  subsides_cancelHandlers s _

theorem fresh_cancelWorkers {d : Nat} (hd : s.stage d = some .fresh) : (s.cancelWorkers scope).stage d = some .fresh :=
  (subsides_onScope scope (wanes_cancelWorker _)).fresh ((subsides_cancelCurrent s scope).fresh hd)

theorem keyOf_cancelWorkers (d : Nat) : (s.cancelWorkers scope).keyOf d = s.keyOf d := by
  rw [cancelWorkers, (subsides_onScope scope (wanes_cancelWorker _)).keyOf, (subsides_cancelCurrent s scope).keyOf]

theorem cancelWorkers_objects (j : Nat) : (s.cancelWorkers scope).objects[j]? =
    s.objects[j]?.map fun a => if s.inScope scope j a then a.cancelWorker else a := by
  simp only [cancelWorkers, onScope, List.getElem?_mapIdx]
  rfl

theorem held_resetSession {client sid : String} (hs : Held s) (hspa : Spared s (.resetSession client sid)) :
    Held (s.resetSession client sid) := by
  refine held_note (held_cancelled hs hspa.1 hspa.2 (held_forget (held_cancelWorkers hs _) _)
    cancelWorkers_objects fun d => fresh_cancelWorkers) fun d hd => ?_
  have hkey := keyOf_currents hs.1 (fun _ => only_key) d hd
  rw [← keyOf_cancelWorkers] at hkey
  exact hkey

theorem held_deleteSession {client sid : String} (hs : Held s) (hspa : Spared s (.deleteSession client sid)) :
    Held (s.deleteSession client sid) := by
  refine held_note (held_cancelled hs hspa.1 hspa.2 (held_forget (held_cancelWorkers (held_cancelCurrent hs _) _) _)
    cancelWorkers_objects fun d hd => fresh_cancelWorkers ((subsides_cancelCurrent s _).fresh hd)) fun d hd => ?_
  have hkey := keyOf_currents hs.1 (fun _ => only_key) d hd
  rw [← (subsides_cancelCurrent s fun key => key == (client, sid)).keyOf, ← keyOf_cancelWorkers] at hkey
  exact hkey

theorem held_shutdown {persisting : Bool} (hs : Held s) (hspa : Spared s (.shutdown persisting)) :
    Held (s.shutdown persisting) := by
  have hcan : Held (((s.cancelCurrent everything).cancelWorkers everything).doom
      (s.queued everything)) :=
    held_cancelled hs hspa.1 hspa.2 (held_cancelWorkers (held_cancelCurrent hs _) _) cancelWorkers_objects
      fun d hd => fresh_cancelWorkers ((subsides_cancelCurrent s _).fresh hd)
  unfold shutdown
  split
  · exact held_forget hcan _
  · exact held_gatherings hcan _

end Removal

theorem held_next (hs : Held s) (hspa : Spared s e) (h : next s e = some t) : Held t := by
  cases e with
  | enqueue client session =>
    cases h
    exact held_enqueue hs hspa
  | workerStep i =>
    obtain ⟨state, hi, hstep⟩ := bind_eq_some_iff.mp h
    exact held_workerStep hs hi hstep
  | begin a =>
    cases hstage : s.stage a with
    | none => simp [next, hstage] at h
    | some st =>
      cases st with
      | made cancelled =>
        simp only [next, hstage, some_inj] at h
        subst h
        exact held_begin hs hstage
      | fresh | running | ended => simp [next, hstage] at h
  | finish a =>
    obtain ⟨hrun, h⟩ := ite_none_right_eq_some.mp h
    cases h
    obtain ⟨x, hx, hstage⟩ := of_stage hrun
    exact (subsides_setStage hx (by rw [hstage]; exact .finished)).held hs
  | stopCurrent client session =>
    cases h
    exact held_stopCurrent hs client session
  | clearQueue _ | clearQueueForSession _ _ =>
    cases h
    exact held_clearScope hs hspa
  | resetSession client sid =>
    cases h
    exact held_resetSession hs hspa
  | deleteSession client sid =>
    cases h
    exact held_deleteSession hs hspa
  | shutdown persisting =>
    cases h
    exact held_shutdown hs hspa
  | finishShutdown k =>
    obtain ⟨gathering, _, h⟩ := bind_eq_some_iff.mp h
    obtain ⟨_, h⟩ := ite_none_right_eq_some.mp h
    cases h
    exact held_gatherings (held_forget hs _) _

theorem held_initial : Held {} := by
  refine ⟨⟨?_, ?_, ?_, ?_, ?_, ?_, ?_, ?_⟩, ⟨?_, ?_, ?_, ?_⟩⟩ <;> simp

end Steps

/-- Over every interleaving, as long as no session is taken away from work that waits behind a running handler, and none
gets new work while its lost queue is still served. -/
theorem spared_sessions_disciplined {s : Manager} (h : Runs.ReachesUnder next Spared {} s) : Disciplined s := by
  have hheld : Held s := Runs.invariant_under (fun _ _ _ hs hspa he => held_next hs hspa he) held_initial h
  exact hheld.2.disciplined hheld.1

instance (s : Manager) (scope : Key → Bool) : Decidable (s.Abandoned scope) :=
  inferInstanceAs (Decidable (∃ entry ∈ s.objects.zipIdx, scope entry.1.key = true ∧
    s.registered entry.2 entry.1 = false ∧ entry.1.draining = true ∧ entry.1.pending ≠ []))

instance (s : Manager) (scope : Key → Bool) : Decidable (s.Backlogged scope) :=
  inferInstanceAs (Decidable (∃ entry ∈ s.objects.zipIdx, scope entry.1.key = true ∧ entry.1.serving = true ∧
    entry.1.pending ≠ []))

instance (s : Manager) (key : Key) : Decidable (s.Settled key) :=
  inferInstanceAs (Decidable (∀ entry ∈ s.objects.zipIdx, entry.1.key = key → s.registered entry.2 entry.1 = false →
    s.busy entry.1 = false))

instance (s : Manager) (key : Key) : Decidable (s.Fresh key) :=
  inferInstanceAs (Decidable (∀ entry ∈ s.objects.zipIdx, entry.1.key = key → s.registered entry.2 entry.1 = true →
    entry.1.worker = .idle → ∀ h ∈ entry.1.pending, h ∉ s.doomed))

instance (s : Manager) (e : Event) : Decidable (Spared s e) :=
  match e with
  | .enqueue client session => inferInstanceAs (Decidable (s.accepts (sessionKey client session) = true →
      s.Settled (sessionKey client session) ∧ s.Fresh (sessionKey client session)))
  | .clearQueue client => inferInstanceAs (Decidable (¬ s.Abandoned fun key => key.1 == client))
  | .clearQueueForSession client sid => inferInstanceAs (Decidable (¬ s.Abandoned fun key => key == (client, sid)))
  | .resetSession client sid | .deleteSession client sid => inferInstanceAs (Decidable
      (¬ (s.Abandoned fun key => key == (client, sid)) ∧ ¬ s.Backlogged fun key => key == (client, sid)))
  | .shutdown _ => inferInstanceAs (Decidable (¬ s.Abandoned Manager.everything ∧ ¬ s.Backlogged Manager.everything))
  | .workerStep _ | .begin _ | .finish _ | .stopCurrent _ _ | .finishShutdown _ => inferInstanceAs (Decidable True)

/-- Two sessions side by side; one is stopped, cleared, reset while its last handler runs and used again once that has
ended, and the manager is shut down. -/
def sparedRun : List Event :=
  [.enqueue "c" (some "a"), .enqueue "c" (some "b"), .enqueue "c" (some "a"), .workerStep 0, .begin 0, .workerStep 1,
    .begin 1, .stopCurrent "c" (some "a"), .clearQueueForSession "c" "a", .resetSession "c" "a", .finish 0, .workerStep 0,
    .enqueue "c" (some "a"), .enqueue "c" (some "a"), .workerStep 2, .begin 3, .finish 3, .workerStep 2, .begin 4,
    .shutdown false, .finish 1, .finish 4, .workerStep 1, .workerStep 2, .finishShutdown 0]

theorem spared_run_disciplined : ∃ s, Runs.run next {} sparedRun = some s ∧ s.started = [0, 1, 3, 4] ∧ s.doomed = [2] ∧
    s.cancels = [(("c", "a"), 0), (("c", "a"), 0)] ∧ Disciplined s := by
  have hrun : ∃ s, Runs.run next {} sparedRun = some s ∧ s.started = [0, 1, 3, 4] ∧ s.doomed = [2] ∧
      s.cancels = [(("c", "a"), 0), (("c", "a"), 0)] := ⟨_, rfl, rfl, rfl, rfl⟩
  obtain ⟨s, hs, hsta, hdoo, hcan⟩ := hrun
  exact ⟨s, hs, hsta, hdoo, hcan, spared_sessions_disciplined (Runs.reachesUnder_of_all (by decide) hs)⟩

def resetBacklog : List Event :=
  [.enqueue "c" (some "a"), .workerStep 0, .begin 0, .enqueue "c" (some "a"), .resetSession "c" "a", .finish 0,
    .workerStep 0, .begin 1]

theorem reset_handler_starts : ¬ ∀ es s, Runs.run next {} es = some s → Disciplined s := by
  intro hall
  have hdis := hall resetBacklog _ rfl
  exact absurd (show 1 ∈ [0, 1] by decide) (hdis.silent 1 (show 1 ∈ [1] by decide))

end OpenAgent.Gateway.Sessions
