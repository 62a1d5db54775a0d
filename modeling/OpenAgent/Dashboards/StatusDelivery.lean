import OpenAgent.Dashboards.SourceStatuses

namespace OpenAgent.Dashboards

open Py List Option

def StatusFrame.number (f : StatusFrame) : Nat := revisionNumber f.seq

def StatusFrame.era (f : StatusFrame) : Nat := revisionNumber f.generation

def StatusClient.mark (c : StatusClient) (f : StatusFrame) : Option Nat := c.lastSequences f.era

theorem StatusClient.handle_eq (c : StatusClient) (f : StatusFrame) :
    (f.number ≠ 0 ∧ ∃ last, c.mark f = some last ∧ f.number ≤ last) ∧ c.handle f = c ∨
    (f.number = 0 ∨ ∀ last, c.mark f = some last → last < f.number) ∧
      c.handle f = ⟨if f.number ≠ 0 then Function.update c.lastSequences f.era (some f.number) else c.lastSequences,
        some f.shown⟩ := by
  rw [StatusClient.handle]
  split
  · next h =>
      obtain ⟨hnum, hlast⟩ := h
      obtain ⟨last, hmark, hle⟩ := (any_eq_true _ _).mp hlast
      exact .inl ⟨⟨hnum, last, hmark, of_decide_eq_true hle⟩, rfl⟩
  next h =>
    refine .inr ⟨?_, rfl⟩
    rcases Nat.eq_zero_or_pos f.number with hzero | hpos
    · exact .inl hzero
    refine .inr fun last hmark => ?_
    by_contra hle
    refine h ⟨Nat.pos_iff_ne_zero.mp hpos, (any_eq_true _ _).mpr ⟨last, hmark, ?_⟩⟩
    exact decide_eq_true (Nat.le_of_not_lt hle)

namespace Sourced

structure Marked (s : Sourced) : Prop where
  noted : ∀ f ∈ s.sent, f.number ≠ 0 → ∃ m, s.client.lastSequences f.era = some m ∧ f.number ≤ m
  got : ∀ era m, s.client.lastSequences era = some m → ∃ f ∈ s.sent, f.era = era ∧ f.number = m

def Shown (s : Sourced) : Prop := ∀ f, s.sent.getLast? = some f → s.client.sourceStatus = some f.shown

def Fresh (s : Sourced) (f : StatusFrame) : Prop := f.number = 0 ∨ ∀ g ∈ s.sent, g.era = f.era → g.number < f.number

def Distinct (s : Sourced) : SourceEvent → Prop
  | .delivers i => ∀ f ∈ s.calls[i]?, s.Fresh f ∨ ∃ g ∈ s.sent.getLast?, g.shown = f.shown
  | _ => True

variable {s t : Sourced} {f : StatusFrame}

theorem Marked.fresh_iff (h : s.Marked) :
    s.Fresh f ↔ f.number = 0 ∨ ∀ last, s.client.mark f = some last → last < f.number := by
  constructor
  · rintro (hzero | hall)
    · exact .inl hzero
    · refine .inr fun last hlast => ?_
      obtain ⟨g, hg, hera, hnum⟩ := h.got f.era last hlast
      rw [← hnum]
      exact hall g hg hera
  rintro (hzero | hlast)
  · exact .inl hzero
  rcases Nat.eq_zero_or_pos f.number with hzero | hpos
  · exact .inl hzero
  refine .inr fun g hg hera => ?_
  by_cases hg0 : g.number = 0
  · rw [hg0]
    exact hpos
  obtain ⟨m, hm, hle⟩ := h.noted g hg hg0
  rw [hera] at hm
  exact hle.trans_lt (hlast m hm)

def get (s : Sourced) (f : StatusFrame) (calls : List StatusFrame) : Sourced :=
  { s with calls, sent := s.sent ++ [f], client := s.client.handle f }

theorem Marked.get (h : s.Marked) (f : StatusFrame) (calls : List StatusFrame) : (s.get f calls).Marked := by
  rcases s.client.handle_eq f with ⟨⟨hnum, last, hlast, hle⟩, he⟩ | ⟨hfre, he⟩
  · refine ⟨fun g hg hne => ?_, fun era m hm => ?_⟩
    · rw [Sourced.get, he]
      rcases mem_append.mp hg with hg | hg
      · exact h.noted g hg hne
      · rw [mem_singleton.mp hg]
        exact ⟨last, hlast, hle⟩
    · rw [Sourced.get, he] at hm
      obtain ⟨g, hg, hgm⟩ := h.got era m hm
      exact ⟨g, mem_append_left _ hg, hgm⟩
  by_cases hzero : f.number = 0
  · rw [if_neg (not_not.mpr hzero)] at he
    refine ⟨fun g hg hne => ?_, fun era m hm => ?_⟩
    · rw [Sourced.get, he]
      rcases mem_append.mp hg with hg | hg
      · exact h.noted g hg hne
      · rw [mem_singleton.mp hg] at hne
        exact absurd hzero hne
    rw [Sourced.get, he] at hm
    obtain ⟨g, hg, hgm⟩ := h.got era m hm
    exact ⟨g, mem_append_left _ hg, hgm⟩
  rw [if_pos hzero] at he
  have hlast := hfre.resolve_left hzero
  refine ⟨fun g hg hne => ?_, fun era m hm => ?_⟩
  · rw [Sourced.get, he]
    dsimp only
    rcases mem_append.mp hg with hg | hg
    · obtain ⟨m, hm, hle⟩ := h.noted g hg hne
      by_cases hera : g.era = f.era
      · rw [hera, Function.update_self]
        rw [hera] at hm
        exact ⟨f.number, rfl, hle.trans (Nat.le_of_lt (hlast m hm))⟩
      · rw [Function.update_of_ne hera]
        exact ⟨m, hm, hle⟩
    · rw [mem_singleton.mp hg, Function.update_self]
      exact ⟨f.number, rfl, Nat.le_refl _⟩
  rw [Sourced.get, he] at hm
  dsimp only at hm
  by_cases hera : era = f.era
  · rw [hera, Function.update_self] at hm
    exact ⟨f, mem_append_right _ (mem_singleton_self f), hera.symm, Option.some.inj hm⟩
  rw [Function.update_of_ne hera] at hm
  obtain ⟨g, hg, hgm⟩ := h.got era m hm
  exact ⟨g, mem_append_left _ hg, hgm⟩

theorem Shown.get_iff (hm : s.Marked) (h : s.Shown) (calls : List StatusFrame) :
    (s.get f calls).Shown ↔ s.Fresh f ∨ ∃ g ∈ s.sent.getLast?, g.shown = f.shown := by
  have hsho : (s.get f calls).Shown ↔ (s.client.handle f).sourceStatus = some f.shown := by
    constructor
    · exact fun ht => ht f List.getLast?_concat
    intro ht g hg
    cases List.getLast?_concat.symm.trans hg
    exact ht
  rw [hsho, hm.fresh_iff]
  rcases s.client.handle_eq f with ⟨⟨hnum, last, hlast, hle⟩, he⟩ | ⟨hfre, he⟩
  · have hsta : ¬ (f.number = 0 ∨ ∀ last, s.client.mark f = some last → last < f.number) := by
      rintro (hzero | hall)
      · exact hnum hzero
      · exact Nat.not_lt_of_le hle (hall last hlast)
    rw [he, or_iff_right hsta]
    -- where nothing was sent, there is no mark
    obtain ⟨g, hg, -⟩ := hm.got f.era last hlast
    obtain ⟨b, hb⟩ : ∃ b, s.sent.getLast? = some b := ⟨_, List.getLast?_eq_some_getLast (ne_nil_of_mem hg)⟩
    rw [h b hb, hb]
    constructor
    · exact fun heq => ⟨b, rfl, Option.some.inj heq⟩
    rintro ⟨c, hc, heq⟩
    cases hc
    rw [heq]
  · rw [he]
    exact iff_of_true rfl (.inl hfre)

variable {e : SourceEvent}

theorem next_client (he : s.next e = some t) : t.sent = s.sent ∧ t.client = s.client ∨
      ∃ i f, e = .delivers i ∧ s.calls[i]? = some f ∧ t = s.get f (s.calls.eraseIdx i) := by
  cases e with
  | starts driver once expired =>
    left
    rw [next] at he
    split at he
    · cases he
      exact ⟨rfl, rfl⟩
    · cases he
      exact ⟨rfl, rfl⟩
  | begins n | idles n | expires n =>
    left
    obtain ⟨task, -, he⟩ := bind_eq_some_iff.mp he
    split at he
    · cases he
      exact ⟨rfl, rfl⟩
    · cases he
  | ticks n w now | fails n code now =>
    left
    obtain ⟨task, -, he⟩ := bind_eq_some_iff.mp he
    split at he
    · obtain ⟨r, hr, rfl⟩ := map_eq_some_iff.mp he
      obtain ⟨d, -, rfl⟩ := map_eq_some_iff.mp hr
      exact ⟨rfl, rfl⟩
    · cases he
  | reports n =>
    left
    obtain ⟨task, -, he⟩ := bind_eq_some_iff.mp he
    rw [report] at he
    split at he
    · cases he
      exact ⟨rfl, rfl⟩
    · cases he
      exact ⟨rfl, rfl⟩
    · cases he
  | ends | stops | commits | checkpoints | restarts =>
    left
    cases he
    exact ⟨rfl, rfl⟩
  | delivers i =>
    obtain ⟨f, hf, rfl⟩ := map_eq_some_iff.mp he
    exact .inr ⟨i, f, rfl, hf, rfl⟩
  | drops i =>
    left
    obtain ⟨f, -, rfl⟩ := map_eq_some_iff.mp he
    exact ⟨rfl, rfl⟩

theorem next_marked (hm : s.Marked) (he : s.next e = some t) : t.Marked := by
  rcases next_client he with ⟨hsent, hcli⟩ | ⟨i, f, -, -, rfl⟩
  · constructor
    · rw [hsent, hcli]
      exact hm.noted
    · rw [hsent, hcli]
      exact hm.got
  · exact hm.get f _

theorem next_shown (hm : s.Marked) (h : s.Shown) (he : s.next e = some t) :
    t.Shown ↔ s.Distinct e := by
  rcases next_client he with ⟨hsent, hcli⟩ | ⟨i, f, rfl, hf, rfl⟩
  · have hkept : t.Shown := by
      rw [Shown, hsent, hcli]
      exact h
    cases e with
    | delivers i =>
      -- a frame that is sent is one more
      obtain ⟨f, -, rfl⟩ := map_eq_some_iff.mp he
      exact absurd (congrArg List.length hsent) (by simp)
    | _ => exact iff_of_true hkept trivial
  rw [Shown.get_iff hm h, Distinct]
  constructor
  · intro hfre g hg
    cases hf.symm.trans hg
    exact hfre
  · exact fun hall => hall f hf

/-- Along every run of a source, after each frame the client shows what it says, exactly where the frames
that are sent are distinct. -/
theorem last_status_shown (stored : Option Datum) (es : List SourceEvent) (s : Sourced)
    (h : Runs.run next { stored } es = some s) :
    (∀ pre post u, es = pre ++ post → Runs.run next { stored } pre = some u → u.Shown) ↔
      Runs.Meets next Distinct { stored } es :=
  Runs.always_iff_meets (fun _ _ _ hm he => next_marked hm he) (fun _ _ _ hm hs he => next_shown hm hs he)
    ⟨fun _ hf => (by cases hf), fun _ _ hm => (by cases hm)⟩ (fun _ hf => by cases hf) h

instance fresh_decidable (s : Sourced) (f : StatusFrame) : Decidable (s.Fresh f) :=
  inferInstanceAs (Decidable (_ ∨ ∀ g ∈ s.sent, g.era = f.era → g.number < f.number))

instance distinct_decidable (s : Sourced) : (e : SourceEvent) → Decidable (s.Distinct e)
  | .delivers i => inferInstanceAs (Decidable (∀ f ∈ s.calls[i]?, s.Fresh f ∨ ∃ g ∈ s.sent.getLast?, g.shown = f.shown))
  | .starts .. | .begins _ | .idles _ | .ticks .. | .fails .. | .reports _ | .expires _ | .ends _ | .stops | .commits _
  | .checkpoints _ | .restarts | .drops _ => inferInstanceAs (Decidable True)

def staticRun : List SourceEvent :=
  [.starts .static false false, .begins 0, .delivers 0, .ticks 0 { value := .str "12:00" } 0, .reports 0, .delivers 0]

theorem staticRun_shown : ∃ s, Runs.run next {} staticRun = some s ∧ s.Shown := by
  have hrun : (Runs.run next {} staticRun).isSome = true := by decide +kernel
  obtain ⟨s, hs⟩ := isSome_iff_exists.mp hrun
  have hall : Runs.all (fun s e => decide (Distinct s e)) next {} staticRun = true := by decide +kernel
  exact ⟨s, hs, (last_status_shown none staticRun s hs).mpr (Runs.meets_of_all (fun _ _ => of_decide_eq_true) hall)
    staticRun [] s (append_nil _).symm hs⟩

/-- It is stopped then: the status has the number of `running`. -/
theorem stopped_hidden : ¬ ∀ (stored : Option Datum) (es : List SourceEvent) (s : Sourced),
    Runs.run next { stored } es = some s → s.Shown := by
  intro hcla
  have hrun : (Runs.run next {} (staticRun ++ [.stops, .delivers 0])).any (fun s =>
      s.sent.getLast?.map StatusFrame.status = some .stopped &&
        s.client.sourceStatus.map RuntimeStatus.status = some .running) = true := by decide +kernel
  obtain ⟨s, hs, hend⟩ := (any_eq_true _ _).mp hrun
  rw [Bool.and_eq_true, decide_eq_true_iff, decide_eq_true_iff] at hend
  obtain ⟨hsent, hsho⟩ := hend
  obtain ⟨f, hf, hsto⟩ := map_eq_some_iff.mp hsent
  rw [hcla none _ s hs f hf, map_some, Option.some.injEq] at hsho
  rw [show f.status = .running from hsho] at hsto
  cases hsto

end Sourced

end OpenAgent.Dashboards
