import OpenAgent.Gateway.Collaboration.Hub

namespace OpenAgent.Gateway.Collaboration

open Py List Option

def answered (trail : List Act) (t : Target) : Bool :=
  trail.foldl (fun ok a => match a with
    | .asked targets allowed => if t ∈ targets then decide (t ∈ allowed) else ok
    | _ => ok) false

def AllowedIn (trail : List Act) (t : Target) : Prop := ∃ allowed, .asked [t] allowed ∈ trail ∧ t ∈ allowed

def Labelled (table : Table) : Prop :=
  ∀ k f, table.get? k = some f → f.resource = k.1 ∧ f.id = k.2.filter (· ≠ "")

def viewsOf (frames : List ResourceFrame) : List Target := frames.filterMap ResourceFrame.target?

/-- Up to the swap: the views held to be allowed are those whose latest answer allowed them. -/
structure Opening (trail : List Act) (allowed : List Target) : Prop where
  unswapped : ∀ frames, .swapped frames ∉ trail
  unfinished : .finished ∉ trail
  current : ∀ t, t ∈ allowed ↔ answered trail t = true

/-- The frames that the loop is done with: each was asked about on its own and handed over if that
answer and the views held to be allowed agree. -/
structure Handled (allowed : List Target) (done : List ResourceFrame) (post : List Act) : Prop where
  acts : ∀ a ∈ post, (∃ f ∈ done, ∃ t answer, f.target? = some t ∧ a = .asked [t] answer) ∨
    ∃ f ∈ done, a = .handed (.resource f)
  fate : ∀ f ∈ done, ∀ t, f.target? = some t → AllowedIn post t → (.handed (.resource f) ∈ post ↔ t ∈ allowed)

def Draining (trail : List Act) (allowed : List Target) (pending : List ResourceFrame) : Prop :=
  ∃ pre done post, trail = pre ++ .swapped (done ++ pending) :: post ∧ Opening pre allowed ∧
    (viewsOf (done ++ pending)).Nodup ∧ Handled allowed done post

def Accounted (trail : List Act) : Stage → Prop
  | .views _ _ => trail = []
  | .presence _ allowed | .session _ allowed _ _ | .stated _ allowed _ | .revoked _ allowed _ _ =>
    Opening trail allowed
  | .frame allowed f t rest => Draining trail allowed (f :: rest) ∧ f.target? = some t
  | .sending allowed rest => Draining trail allowed rest
  | .idle | .stopped => .finished ∈ trail →
      ∃ allowed past, trail = past ++ [.finished] ∧ Draining past allowed []

structure Observer.Kept (o : Observer) : Prop where
  labelled : Labelled o.resources
  accounted : Accounted o.trail o.stage

theorem answered_concat (trail : List Act) (a : Act) (t : Target) : answered (trail ++ [a]) t = match a with
      | .asked targets allowed => if t ∈ targets then decide (t ∈ allowed) else answered trail t
      | _ => answered trail t := by
  rw [answered, foldl_append]
  rfl

theorem kind_text_of_ofText {s : String} {k : Kind} (h : Kind.ofText s = some k) : k.text = s := by
  simpa using List.find?_some h

theorem labelled_empty : Labelled Dict.empty := by
  intro k f hk
  cases hk

theorem labelled_invalidate {table : Table} (h : Labelled table) (resource action : String)
    (resourceId : Option String) : Labelled (table.invalidate resource action resourceId) := by
  intro k f hk
  rw [Table.invalidate] at hk
  split at hk
  · rw [Dict.get?_set] at hk
    split at hk
    · rename_i he
      cases hk
      rw [he]
      exact ⟨rfl, rfl⟩
    · cases hk
  rw [Dict.get?_set] at hk
  split at hk
  · rename_i he
    cases hk
    rw [he]
    exact ⟨rfl, rfl⟩
  · exact h k f hk

theorem nodup_viewsOf {table : Table} (h : Labelled table) : (viewsOf table.values).Nodup := by
  have hkeys := table.nodup
  have hmem : ∀ e ∈ table.entries, ∀ t, e.2.target? = some t → e.1 = (t.kind.text, some t.id) := by
    intro e he t ht
    obtain ⟨hr, hid⟩ := h e.1 e.2 ((table.get?_eq_some_iff e.1 e.2).mpr he)
    rw [ResourceFrame.target?] at ht
    split at ht
    · rename_i kind id hkind hi
      cases ht
      rw [hid, filter_eq_some_iff] at hi
      exact Prod.ext (by rw [kind_text_of_ofText hkind, hr]) hi.1
    · cases ht
  rw [viewsOf, Dict.values, filterMap_map]
  rw [List.Nodup, pairwise_map] at hkeys
  rw [List.Nodup, pairwise_filterMap]
  refine hkeys.imp_of_mem ?_
  intro d e hd he hne t ht u hu htu
  subst htu
  exact hne ((hmem d hd t ht).trans (hmem e he t hu).symm)

variable {allowed : List Target} {trail : List Act}

theorem Opening.asked (h : Opening trail allowed) (targets answer after : List Target)
    (hafter : ∀ t, t ∈ after ↔ if t ∈ targets then t ∈ answer else t ∈ allowed) :
    Opening (trail ++ [.asked targets answer]) after where
  unswapped := by
    intro frames hm
    rcases mem_append.mp hm with hm | hm
    · exact h.unswapped frames hm
    · cases mem_singleton.mp hm
  unfinished := by
    intro hm
    rcases mem_append.mp hm with hm | hm
    · exact h.unfinished hm
    · cases mem_singleton.mp hm
  current := by
    intro t
    rw [hafter, answered_concat]
    dsimp only
    split
    · exact (decide_eq_true_iff).symm
    · exact h.current t

theorem Opening.handed (h : Opening trail allowed) (f : SharedFrame) : Opening (trail ++ [.handed f]) allowed where
  unswapped := by
    intro frames hm
    rcases mem_append.mp hm with hm | hm
    · exact h.unswapped frames hm
    · cases mem_singleton.mp hm
  unfinished := by
    intro hm
    rcases mem_append.mp hm with hm | hm
    · exact h.unfinished hm
    · cases mem_singleton.mp hm
  current := by
    intro t
    rw [answered_concat]
    exact h.current t

theorem Opening.swapped (h : Opening trail allowed) {frames : List ResourceFrame} (hn : (viewsOf frames).Nodup) :
    Draining (trail ++ [.swapped frames]) allowed frames :=
  ⟨trail, [], [], rfl, h, hn, nofun, nofun⟩

variable {f : ResourceFrame} {rest : List ResourceFrame}

theorem views_apart {done : List ResourceFrame}
    (hn : (viewsOf (done ++ f :: rest)).Nodup) {g : ResourceFrame} (hg : g ∈ done) {t : Target}
    (ht : g.target? = some t) : f.target? ≠ some t := by
  intro hf
  rw [viewsOf, filterMap_append, nodup_append] at hn
  refine hn.2.2 t (mem_filterMap.mpr ⟨g, hg, ht⟩) t (mem_filterMap.mpr ⟨f, ?_, hf⟩) rfl
  exact mem_cons_self

theorem Handled.extend {done : List ResourceFrame} {post acts : List Act}
    (h : Handled allowed done post) (hn : (viewsOf (done ++ f :: rest)).Nodup)
    (hacts : ∀ a ∈ acts, (∃ t answer, f.target? = some t ∧ a = .asked [t] answer) ∨ a = .handed (.resource f))
    (hfate : ∀ t, f.target? = some t → AllowedIn acts t → (.handed (.resource f) ∈ acts ↔ t ∈ allowed)) :
    Handled allowed (done ++ [f]) (post ++ acts) where
  acts := by
    intro a ha
    rcases mem_append.mp ha with ha | ha
    · exact (h.acts a ha).imp (fun ⟨g, hg, hk⟩ => ⟨g, mem_append_left _ hg, hk⟩)
        (fun ⟨g, hg, hk⟩ => ⟨g, mem_append_left _ hg, hk⟩)
    · exact (hacts a ha).imp (fun hk => ⟨f, by simp, hk⟩) (fun hk => ⟨f, by simp, hk⟩)
  fate := by
    intro g hg u hu hall
    rw [mem_append]
    obtain ⟨answer, hask, hin⟩ := hall
    rcases mem_append.mp hg with hg | hg
    · -- an earlier frame: nothing new is about it
      have hne := views_apart hn hg hu
      have hold : AllowedIn post u := by
        rcases mem_append.mp hask with hask | hask
        · exact ⟨answer, hask, hin⟩
        rcases hacts _ hask with ⟨t, answer', ht, he⟩ | he
        · cases he
          exact absurd ht hne
        · cases he
      have hnot : .handed (.resource g) ∉ acts := by
        intro hm
        rcases hacts _ hm with ⟨t, answer', _, he⟩ | he
        · cases he
        · cases he
          exact hne hu
      rw [or_iff_left hnot]
      exact h.fate g hg u hu hold
    · -- the frame itself: nothing old is about it
      rw [mem_singleton.mp hg] at hu ⊢
      have hnew : AllowedIn acts u := by
        rcases mem_append.mp hask with hask | hask
        · rcases h.acts _ hask with ⟨d, hd, t, answer', ht, he⟩ | ⟨d, _, he⟩
          · cases he
            exact absurd hu (views_apart hn hd ht)
          · cases he
        · exact ⟨answer, hask, hin⟩
      have hnot : .handed (.resource f) ∉ post := by
        intro hm
        rcases h.acts _ hm with ⟨d, _, t, answer', _, he⟩ | ⟨d, hd, he⟩
        · cases he
        · cases he
          exact views_apart hn hd hu hu
      rw [or_iff_right hnot]
      exact hfate u hu hnew

theorem Draining.extend (h : Draining trail allowed (f :: rest)) (acts : List Act)
    (hacts : ∀ a ∈ acts, (∃ t answer, f.target? = some t ∧ a = .asked [t] answer) ∨ a = .handed (.resource f))
    (hfate : ∀ t, f.target? = some t → AllowedIn acts t → (.handed (.resource f) ∈ acts ↔ t ∈ allowed)) :
    Draining (trail ++ acts) allowed rest := by
  obtain ⟨pre, done, post, rfl, hpre, hn, hpost⟩ := h
  have hmove : done ++ f :: rest = done ++ [f] ++ rest := by simp
  refine ⟨pre, done ++ [f], post ++ acts, by simp, hpre, ?_, hpost.extend hn hacts hfate⟩
  rw [← hmove]
  exact hn

variable {pending : List ResourceFrame}

theorem Draining.unfinished (h : Draining trail allowed pending) : .finished ∉ trail := by
  obtain ⟨pre, done, post, rfl, hpre, -, hpost⟩ := h
  intro hm
  rcases mem_append.mp hm with hm | hm
  · exact hpre.unfinished hm
  rcases mem_cons.mp hm with hm | hm
  · cases hm
  rcases hpost.acts _ hm with ⟨_, _, _, _, _, he⟩ | ⟨_, _, he⟩
  · cases he
  · cases he

namespace Observer

variable {o : Observer}

theorem accounted_nextFrame (h : Draining o.trail allowed pending) :
    Accounted (o.nextFrame allowed pending).trail (o.nextFrame allowed pending).stage := by
  cases pending with
  | nil => exact fun _ => ⟨allowed, o.trail, rfl, h⟩
  | cons f rest =>
    rw [nextFrame]
    cases ht : f.target? with
    | some t => exact ⟨h, ht⟩
    | none =>
      refine h.extend [.handed (.resource f)] ?_ ?_
      · intro a ha
        exact .inr (mem_singleton.mp ha)
      intro t hf
      rw [ht] at hf
      cases hf

theorem resources_nextFrame (o : Observer) (allowed : List Target) (pending : List ResourceFrame) :
    (o.nextFrame allowed pending).resources = o.resources := by
  cases pending with
  | nil => rfl
  | cons f rest =>
    rw [nextFrame]
    cases f.target? <;> rfl

theorem kept_nextFrame (hl : Labelled o.resources) (h : Draining o.trail allowed pending) :
    (o.nextFrame allowed pending).Kept where
  labelled := by rw [resources_nextFrame]; exact hl
  accounted := accounted_nextFrame h

theorem kept_nextSession (hl : Labelled o.resources)
    (h : Opening o.trail allowed) (generation : Nat) (sessions : List String) :
    (o.nextSession generation allowed sessions).Kept := by
  cases sessions with
  | nil =>
    exact kept_nextFrame labelled_empty (h.swapped (nodup_viewsOf hl))
  | cons sid rest => exact ⟨hl, h⟩

end Observer

theorem mem_addTarget {targets : List Target} {t u : Target} : u ∈ addTarget targets t ↔ u = t ∨ u ∈ targets := by
  rw [addTarget]
  split
  · rename_i h
    exact ⟨.inr, fun hu => hu.elim (fun he => he ▸ h) id⟩
  · rw [mem_append, mem_singleton, or_comm]

theorem accounted_over (h : .finished ∉ trail) : Accounted trail .idle :=
  fun hf => absurd hf h

variable {h : Hub}

namespace Hub

def Kept (h : Hub) : Prop := ∀ c, (h.observer c).Kept

variable {c : ClientId}

theorem kept_setObserver (hk : h.Kept) {o : Observer} (hl : Labelled o.resources)
    (ha : Accounted o.trail o.stage) : (h.setObserver c o).Kept := by
  intro d
  by_cases hd : d = c
  · subst hd
    simp only [setObserver, Function.update_self]
    exact ⟨hl, ha⟩
  · simp only [setObserver, Function.update_of_ne hd]
    exact hk d

theorem kept_viewsAuthorized (hk : h.Kept) {generation : Nat}
    {targets : List Target} (hstage : (h.observer c).stage = .views generation targets)
    {access : Access} (hin : ∀ t ∈ access.allowed, t ∈ targets) :
    (h.viewsAuthorized c generation targets access).Kept := by
  obtain ⟨hl, ht⟩ := hk c
  rw [hstage] at ht
  have htra : (h.observer c).trail = [] := ht
  have hsta : Opening [] ([] : List Target) := ⟨by simp, by simp, fun t => by simp [answered]⟩
  have hopen : Opening ((h.observer c).trail ++ [.asked targets access.allowed]) access.allowed := by
    rw [htra]
    refine hsta.asked _ _ _ (fun t => ?_)
    split
    · rfl
    · rename_i hn
      exact ⟨fun hm => absurd (hin t hm) hn, nofun⟩
  rw [viewsAuthorized]
  split
  · exact kept_setObserver hk hl (accounted_over hopen.unfinished)
  dsimp only
  split
  · exact kept_setObserver hk hl (hopen.handed _)
  have hnext := Observer.kept_nextSession (o := { (h.observer c).note (.asked targets access.allowed) with
    user := ⟨access.userId, access.name⟩
    focus := (h.observer c).requestedFocus.filter (· ∈ access.allowed) }) hl hopen generation
    (h.observer c).sessions
  exact kept_setObserver hk hnext.labelled hnext.accounted

theorem kept_sessionAuthorized (hk : h.Kept) {generation : Nat} {sid : String} {rest : List String}
    (hstage : (h.observer c).stage = .session generation allowed sid rest) (access : Access) :
    (h.sessionAuthorized c generation allowed sid rest access).Kept := by
  obtain ⟨hl, ht⟩ := hk c
  rw [hstage] at ht
  have hopen := Opening.asked ht [⟨.session, sid⟩] access.allowed
    (if ⟨.session, sid⟩ ∈ access.allowed then addTarget allowed ⟨.session, sid⟩
      else allowed.filter (· ≠ ⟨.session, sid⟩)) (by
        intro t
        by_cases he : t = ⟨.session, sid⟩
        · subst he
          split <;> simp_all [mem_addTarget]
        · split <;> simp [mem_addTarget, he])
  rw [sessionAuthorized]
  split
  · exact kept_setObserver hk hl (accounted_over hopen.unfinished)
  dsimp only
  generalize (if (⟨.session, sid⟩ : Target) ∈ access.allowed then addTarget allowed ⟨.session, sid⟩
    else allowed.filter (· ≠ ⟨.session, sid⟩)) = after at hopen ⊢
  split
  · exact kept_setObserver hk hl (hopen.handed _)
  split
  · exact kept_setObserver hk hl (hopen.handed _)
  have hnext := Observer.kept_nextSession
    (o := (h.observer c).note (.asked [⟨.session, sid⟩] access.allowed)) hl hopen generation rest
  exact kept_setObserver hk hnext.labelled hnext.accounted

theorem kept_frameAuthorized (hk : h.Kept) {t : Target}
    (hstage : (h.observer c).stage = .frame allowed f t rest) (access : Access) :
    (h.frameAuthorized c allowed f t rest access).Kept := by
  obtain ⟨hl, hd⟩ := hk c
  rw [hstage] at hd
  obtain ⟨hdra, hview⟩ := hd
  have hskip : t ∉ access.allowed ∨ t ∉ allowed →
      (h.setObserver c (((h.observer c).note (.asked [t] access.allowed)).nextFrame allowed rest)).Kept := by
    intro hnot
    have hask : Draining ((h.observer c).trail ++ [.asked [t] access.allowed]) allowed rest := by
      refine hdra.extend _ ?_ ?_
      · intro a ha
        exact .inl ⟨t, access.allowed, hview, mem_singleton.mp ha⟩
      intro u hu hall
      rw [hview] at hu
      cases hu
      obtain ⟨answer, hm, hin⟩ := hall
      cases mem_singleton.mp hm
      simp [hnot.resolve_left (not_not_intro hin)]
    have hnext := Observer.kept_nextFrame (o := (h.observer c).note (.asked [t] access.allowed)) hl hask
    exact kept_setObserver hk hnext.labelled hnext.accounted
  rw [frameAuthorized]
  by_cases hans : t ∈ access.allowed
  · rw [if_neg (not_not_intro hans)]
    by_cases hheld : t ∈ allowed
    · rw [if_neg (not_not_intro hheld)]
      refine kept_setObserver hk hl ?_
      have hboth := hdra.extend [.asked [t] access.allowed, .handed (.resource f)] (by
        intro a ha
        rcases mem_cons.mp ha with ha | ha
        · exact .inl ⟨t, access.allowed, hview, ha⟩
        · exact .inr (mem_singleton.mp ha)) (by
        intro u hu _
        rw [hview] at hu
        cases hu
        simp [hheld])
      rw [append_cons] at hboth
      exact hboth
    · rw [if_pos hheld]
      exact hskip (.inr hheld)
  · rw [if_pos hans]
    exact hskip (.inl hans)

theorem kept_authorized {h' : Hub} (hk : h.Kept) {result : Access} (he : h.authorized c result = some h') : h'.Kept := by
  rw [authorized] at he
  split at he
  · rename_i generation targets hstage
    obtain ⟨access, ha, rfl⟩ := map_eq_some_iff.mp he
    obtain ⟨rfl, hin⟩ := authorize_eq_some ha
    exact kept_viewsAuthorized hk hstage hin
  · rename_i hstage
    obtain ⟨access, -, rfl⟩ := map_eq_some_iff.mp he
    exact kept_sessionAuthorized hk hstage access
  · rename_i hstage
    obtain ⟨access, -, rfl⟩ := map_eq_some_iff.mp he
    exact kept_frameAuthorized hk hstage access
  · cases he

theorem kept_sendDone {h' : Hub} (hk : h.Kept) (he : h.sendDone c = some h') : h'.Kept := by
  obtain ⟨hl, ha⟩ := hk c
  rw [sendDone] at he
  split at he
  · rename_i hstage
    rw [hstage] at ha
    have hnext := Observer.kept_nextSession hl ha
    cases he
    exact kept_setObserver hk (hnext _ _).labelled (hnext _ _).accounted
  · rename_i hstage
    rw [hstage] at ha
    have hnext := Observer.kept_nextSession hl ha
    cases he
    exact kept_setObserver hk (hnext _ _).labelled (hnext _ _).accounted
  · rename_i generation allowed sid rest hstage
    rw [hstage] at ha
    have hnext := Observer.kept_nextSession
      (o := { h.observer c with sent := (h.observer c).sent.erase sid }) hl ha generation rest
    cases he
    exact kept_setObserver hk hnext.labelled hnext.accounted
  · rename_i hstage
    rw [hstage] at ha
    have hnext := Observer.kept_nextFrame hl ha
    cases he
    exact kept_setObserver hk hnext.labelled hnext.accounted
  · cases he

theorem accounted_stopped {stage : Stage} (h : Accounted trail stage) : Accounted trail .stopped := by
  intro hf
  cases stage with
  | idle | stopped => exact h hf
  | views _ _ =>
    have ht : trail = [] := h
    rw [ht] at hf
    cases hf
  | presence _ _ | session _ _ _ _ | stated _ _ _ | revoked _ _ _ _ => exact absurd hf h.unfinished
  | frame _ _ _ _ => exact absurd hf h.1.unfinished
  | sending _ _ => exact absurd hf (Draining.unfinished h)

theorem kept_disconnect (hk : h.Kept) (c : ClientId) : (h.disconnect c).Kept := by
  intro d
  have hstop := kept_setObserver (o := { h.observer c with stage := .stopped }) hk (c := c) (hk c).labelled
    (accounted_stopped (hk c).accounted)
  exact hstop d

end Hub

theorem kept_next {codec : Codec} {h' : Hub} {e : Event} (hk : h.Kept) (he : next codec h e = some h') : h'.Kept := by
  cases e with
  | connect c user =>
    rw [next, Hub.connect] at he
    split at he
    · cases he
    cases he
    have hnew := Hub.kept_setObserver hk (c := c) (o := { user }) labelled_empty (accounted_over (by simp))
    exact fun d => hnew d
  | disconnect c =>
    rw [next] at he
    split at he
    · cases he
      exact Hub.kept_disconnect hk c
    · cases he
  | received c text =>
    rw [next] at he
    split at he
    · cases he
      rw [Hub.received]
      split
      · exact hk
      · exact Hub.kept_setObserver hk (hk c).labelled (hk c).accounted
      · exact Hub.kept_disconnect hk c
    · cases he
  | begin _ _ _ _ _ | publish _ _ | prune _ => cases he; exact hk
  | resource resource action resourceId =>
    cases he
    intro c
    rw [Hub.resource]
    dsimp only
    split
    · exact ⟨labelled_invalidate (hk c).labelled _ _ _, (hk c).accounted⟩
    · exact hk c
  | deliver c now =>
    rw [next] at he
    split at he
    · cases he
      exact Hub.kept_setObserver (h := { h with projection := h.projection.prune now }) hk (hk c).labelled rfl
    · cases he
  | authorized c result => exact Hub.kept_authorized hk he
  | sendDone c => exact Hub.kept_sendDone hk he
  | deliveryFailed c =>
    rw [next, Hub.deliveryFailed] at he
    split at he
    · cases he
    · cases he
      exact Hub.kept_setObserver hk (hk c).labelled (Hub.accounted_stopped (hk c).accounted)

theorem kept_reachable {codec : Codec} (hr : Reachable codec h) : h.Kept :=
  Runs.invariant (fun _ _ _ hk he => kept_next hk he)
    (fun _ => ⟨labelled_empty, accounted_over (by simp [Hub.empty])⟩) hr

/-- A finished delivery handed over every swapped invalidation that its own authorization allowed if
and only if, for each of these, the latest answer about its view from before the swap allowed it too. -/
theorem invalidations_delivered_iff {codec : Codec} {h : Hub} (hr : Reachable codec h) (c : ClientId)
    {pre post : List Act} {frames : List ResourceFrame}
    (htrail : (h.observer c).trail = pre ++ .swapped frames :: post) (hfinished : .finished ∈ post) :
    (∀ f ∈ frames, ∀ t, f.target? = some t → AllowedIn post t → .handed (.resource f) ∈ post) ↔
    (∀ f ∈ frames, ∀ t, f.target? = some t → AllowedIn post t → answered pre t = true) := by
  have hmem : .finished ∈ (h.observer c).trail := by
    rw [htrail]
    exact mem_append_right _ (mem_cons_of_mem _ hfinished)
  obtain ⟨allowed, past, hpast, pre', done, post', hspl, hopen, -, hpost⟩ :=
    Hub.accounted_stopped ((kept_reachable hr) c).accounted hmem
  rw [hpast, hspl, append_nil, append_assoc, cons_append] at htrail
  have hpost' : ∀ gs, .swapped gs ∉ post' ++ [.finished] := by
    intro gs hm
    rcases mem_append.mp hm with hm | hm
    · rcases hpost.acts _ hm with ⟨_, _, _, _, _, he⟩ | ⟨_, _, he⟩
      · cases he
      · cases he
    · cases mem_singleton.mp hm
  obtain ⟨rfl, rfl, rfl⟩ : pre' = pre ∧ done = frames ∧ post' ++ [.finished] = post := by
    rcases append_eq_append_iff.mp htrail with ⟨as, rfl, has⟩ | ⟨as, rfl, has⟩
    · cases as with
      | nil =>
        cases has
        exact ⟨(append_nil _).symm, rfl, rfl⟩
      | cons a as =>
        obtain ⟨rfl, hrest⟩ := List.cons.inj has
        exact absurd (hrest ▸ mem_append_right as mem_cons_self) (hpost' frames)
    cases as with
    | nil =>
      cases has
      exact ⟨append_nil _, rfl, rfl⟩
    | cons a as =>
      obtain ⟨rfl, hrest⟩ := List.cons.inj has
      exact absurd (mem_append_right _ mem_cons_self) (hopen.unswapped frames)
  have hdrop : ∀ t, AllowedIn (post' ++ [.finished]) t ↔ AllowedIn post' t := by
    simp [AllowedIn]
  have hhand : ∀ f, .handed f ∈ post' ++ [.finished] ↔ .handed f ∈ post' := by
    simp
  simp only [hdrop, hhand]
  constructor
  · intro hall f hf t ht ha
    exact (hopen.current t).mp ((hpost.fate f hf t ht ha).mp (hall f hf t ht ha))
  · intro hall f hf t ht ha
    exact (hpost.fate f hf t ht ha).mpr ((hopen.current t).mpr (hall f hf t ht ha))

def nightly : Target := ⟨.workflow, "nightly"⟩

def nightlyFrame : ResourceFrame := ⟨"workflow", "updated", some "nightly"⟩

def mute : Codec := ⟨fun _ => none, fun _ _ => false⟩

def changesLate : List Event :=
  [.connect 0 ⟨"user", "User"⟩, .deliver 0 0, .authorized 0 ⟨"user", "User", []⟩,
    .resource "workflow" "updated" (some "nightly"), .sendDone 0, .authorized 0 ⟨"user", "User", [nightly]⟩]

def changesEarly : List Event :=
  [.connect 0 ⟨"user", "User"⟩, .resource "workflow" "updated" (some "nightly"), .deliver 0 0,
    .authorized 0 ⟨"user", "User", [nightly]⟩, .sendDone 0, .authorized 0 ⟨"user", "User", [nightly]⟩, .sendDone 0]

def droppedLate (h : Hub) : Bool :=
  match (h.observer 0).trail with
  | [.asked _ [], .handed (.presence _), .swapped [f], .asked [t] [u], .finished] =>
    f = nightlyFrame && t = nightly && u = nightly
  | _ => false

def sentEarly (h : Hub) : Bool :=
  match (h.observer 0).trail with
  | [.asked [s] [v], .handed (.presence _), .swapped [f], .asked [t] [u], .handed (.resource g), .finished] =>
    s = nightly && v = nightly && f = nightlyFrame && t = nightly && u = nightly && g = nightlyFrame
  | _ => false

theorem late_invalidation_dropped : ¬ ∀ h, Reachable mute h → ∀ c pre frames post,
    (h.observer c).trail = pre ++ .swapped frames :: post → .finished ∈ post →
    ∀ f ∈ frames, ∀ t, f.target? = some t → AllowedIn post t → .handed (.resource f) ∈ post := by
  intro hall
  have hrun : (Runs.run (next mute) Hub.empty changesLate).any droppedLate = true := by decide +kernel
  obtain ⟨h, hh, hdro⟩ := (any_eq_true _ _).mp hrun
  rw [droppedLate] at hdro
  split at hdro
  · rename_i targets people f t u htra
    simp only [Bool.and_eq_true, decide_eq_true_eq] at hdro
    obtain ⟨⟨rfl, rfl⟩, rfl⟩ := hdro
    have hsent := hall h ⟨changesLate, hh⟩ 0 [.asked targets [], .handed (.presence people)] [nightlyFrame]
      [.asked [nightly] [nightly], .finished] htra (by simp) nightlyFrame (by simp) nightly rfl
      ⟨[nightly], by simp, by simp⟩
    simp at hsent
  · cases hdro

theorem early_invalidation_delivered : ∃ h, Reachable mute h ∧ ∃ pre post,
    (h.observer 0).trail = pre ++ .swapped [nightlyFrame] :: post ∧ .handed (.resource nightlyFrame) ∈ post := by
  have hrun : (Runs.run (next mute) Hub.empty changesEarly).any sentEarly = true := by decide +kernel
  obtain ⟨h, hh, hsent⟩ := (any_eq_true _ _).mp hrun
  rw [sentEarly] at hsent
  split at hsent
  · rename_i s v people f t u g htra
    simp only [Bool.and_eq_true, decide_eq_true_eq] at hsent
    obtain ⟨⟨⟨⟨⟨rfl, rfl⟩, rfl⟩, rfl⟩, rfl⟩, rfl⟩ := hsent
    have hr : Reachable mute h := ⟨changesEarly, hh⟩
    have hspl : (h.observer 0).trail = [.asked [nightly] [nightly], .handed (.presence people)] ++
        .swapped [nightlyFrame] :: [.asked [nightly] [nightly], .handed (.resource nightlyFrame), .finished] := htra
    refine ⟨h, hr, _, _, hspl, ?_⟩
    refine (invalidations_delivered_iff hr 0 hspl (by simp)).mpr ?_ nightlyFrame (by simp) nightly rfl ⟨[nightly], by simp, by simp⟩
    intro f hf t ht _
    rw [mem_singleton.mp hf] at ht
    cases ht
    simp [answered, nightly]
  · cases hsent

end OpenAgent.Gateway.Collaboration
