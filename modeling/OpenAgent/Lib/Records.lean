import Mathlib.Algebra.GroupWithZero.Nat
import Mathlib.Data.List.Basic

namespace OpenAgent.Records

open List

variable {α : Type} {stop : α} {es ds : List (List α × List α)}

def stream (stop : α) (rs : List (List α × List α)) : List α := rs.flatMap (fun r => r.1 ++ stop :: r.2)

def heads (rs : List (List α × List α)) : Nat := (rs.map (fun r => r.1.length + 1)).sum

def bodies (rs : List (List α × List α)) : Nat := (rs.map (fun r => r.2.length)).sum

/-- Where the names begin, in a row that begins at `start`. -/
def starts (start : Nat) : List (List α × List α) → List Nat
  | [] => []
  | r :: rs => start :: starts (start + r.1.length + 1 + r.2.length) rs

/-- The place is one of a body. -/
def InBody (start : Nat) : List (List α × List α) → Nat → Prop
  | [], _ => False
  | r :: rs, place =>
    (start + r.1.length + 1 ≤ place ∧ place < start + r.1.length + 1 + r.2.length) ∨
      InBody (start + r.1.length + 1 + r.2.length) rs place

/-- No name of `ds` begins inside a body of `es`. -/
def Apart (es ds : List (List α × List α)) : Prop := ∀ place ∈ starts 0 ds, ¬ InBody 0 es place

theorem stream_cons (r : List α × List α) : stream stop (r :: es) = r.1 ++ stop :: (r.2 ++ stream stop es) := by
  simp [stream]

theorem heads_cons (r : List α × List α) : heads (r :: es) = r.1.length + 1 + heads es := by simp [heads]

theorem length_stream : (stream stop es).length = heads es + bodies es := by
  induction es with
  | nil => rfl
  | cons r es ih =>
    simp only [stream_cons, heads_cons, bodies, length_append, length_cons, map_cons, sum_cons] at *
    omega

variable {start place : Nat}

theorem le_of_inBody (h : InBody start es place) : start < place := by
  induction es generalizing start with
  | nil => exact h.elim
  | cons r es ih =>
    rcases h with h | h
    · omega
    · have := ih h
      omega

theorem le_of_mem_starts (h : place ∈ starts start es) : start ≤ place := by
  induction es generalizing start with
  | nil => cases h
  | cons r es ih =>
    rcases mem_cons.mp h with rfl | h
    · exact Nat.le_refl _
    · have := ih h
      omega

theorem not_inBody_of_mem_starts (h : place ∈ starts start es) : ¬ InBody start es place := by
  induction es generalizing start with
  | nil => cases h
  | cons r es ih =>
    rcases mem_cons.mp h with rfl | h
    · intro hin
      exact absurd (le_of_inBody hin) (Nat.lt_irrefl _)
    have hle := le_of_mem_starts h
    rintro (hin | hin)
    · omega
    · exact ih h hin

theorem cut {name name' rest rest' : List α} (hname : stop ∉ name) (hname' : stop ∉ name')
    (h : name ++ stop :: rest = name' ++ stop :: rest') : name = name' ∧ rest = rest' := by
  induction name generalizing name' with
  | nil =>
    cases name' with
    | nil => exact ⟨rfl, (List.cons.inj h).2⟩
    | cons a name' => exact absurd ((List.cons.inj h).1 ▸ mem_cons_self) hname'
  | cons a name ih =>
    cases name' with
    | nil => exact absurd ((List.cons.inj h).1 ▸ mem_cons_self) hname
    | cons a' name' =>
      obtain ⟨rfl, htail⟩ := List.cons.inj h
      obtain ⟨rfl, hrest⟩ := ih (mt (mem_cons_of_mem _) hname) (mt (mem_cons_of_mem _) hname') htail
      exact ⟨rfl, hrest⟩

/-- A body that ends where no other body goes on holds the whole of that one. -/
theorem covers {body rest : List α} (h : body ++ rest = p ++ stream stop es) (hlen : p.length ≤ body.length) :
    ∃ more, body = p ++ more ∧ more ++ rest = stream stop es := by
  obtain ⟨more, rfl⟩ := prefix_of_prefix_length_le (prefix_append p _) (h ▸ prefix_append body rest) hlen
  rw [append_assoc] at h
  exact ⟨more, rfl, append_cancel_left h⟩

/-- The names of `ds` are tails of names of `es`: one of a name at most, as a name goes on to the stop. -/
theorem heads_le {g : List α} {n : Nat} (hes : ∀ r ∈ es, stop ∉ r.1) (hds : ∀ r ∈ ds, stop ∉ r.1)
    (h : g ++ stream stop ds = stream stop es)
    (hapa : ∀ place ∈ starts (n + g.length) ds, ¬ InBody n es place) :
    heads ds ≤ heads es ∧ (heads ds = heads es → ds = es) := by
  induction es generalizing g n ds with
  | nil =>
    cases ds with
    | nil => exact ⟨Nat.le_refl _, fun _ => rfl⟩
    | cons d ds => simp [stream] at h
  | cons e es ih =>
    have hes' : ∀ r ∈ es, stop ∉ r.1 := fun r hr => hes r (mem_cons_of_mem _ hr)
    have he : stop ∉ e.1 := hes e mem_cons_self
    rw [stream_cons] at h
    rw [heads_cons]
    cases ds with
    | nil =>
      have : heads ([] : List (List α × List α)) = 0 := rfl
      exact ⟨by omega, fun _ => by omega⟩
    | cons d ds =>
      have hd : stop ∉ d.1 := hds d mem_cons_self
      have hfir := hapa _ mem_cons_self
      by_cases hg : g.length ≤ e.1.length
      · -- The name begins inside the name of `e`, and ends with it.
        obtain ⟨name, hname⟩ := prefix_of_prefix_length_le (prefix_append g (stream stop (d :: ds)))
          (h ▸ prefix_append e.1 (stop :: (e.2 ++ stream stop es))) hg
        rw [← hname, append_assoc, stream_cons] at h
        have hfree : stop ∉ name := fun hmem => he (hname ▸ mem_append_right _ hmem)
        obtain ⟨hdna, hrest⟩ := cut hd hfree (append_cancel_left h)
        have hlen : e.1.length = g.length + d.1.length := by rw [← hname, hdna, length_append]
        have hbody : e.2.length ≤ d.2.length := by
          cases ds with
          | nil =>
            have := congrArg List.length hrest
            simp [stream] at this
            omega
          | cons d' ds =>
            have hnext := hapa (n + g.length + d.1.length + 1 + d.2.length) (mem_cons_of_mem _ mem_cons_self)
            by_contra hlt
            exact hnext (.inl ⟨by omega, by omega⟩)
        obtain ⟨more, hmore, hstr⟩ := covers hrest hbody
        have hds' : ∀ r ∈ ds, stop ∉ r.1 := fun r hr => hds r (mem_cons_of_mem _ hr)
        obtain ⟨hle, heq⟩ := ih (n := n + e.1.length + 1 + e.2.length) hes' hds' hstr (by
          intro place hpla hin
          refine hapa place (mem_cons_of_mem _ ?_) (.inr hin)
          rwa [hlen, show n + (g.length + d.1.length) + 1 + e.2.length + more.length =
            n + g.length + d.1.length + 1 + d.2.length by rw [hmore, length_append]; omega] at hpla)
        rw [heads_cons]
        refine ⟨by omega, ?_⟩
        intro hhea
        obtain rfl := heq (by omega)
        have hnil : g = [] := eq_nil_of_length_eq_zero (by omega)
        have hmor : more = [] := append_left_eq_self.mp hstr
        rw [hnil, nil_append] at hname
        rw [hmor, append_nil] at hmore
        rw [show d = e from Prod.ext (hdna.trans hname) hmore]
      · -- The name begins behind the body of `e`, which has none of its own then.
        have hwho : e.1 ++ [stop] <+: g ++ stream stop (d :: ds) := h ▸ ⟨e.2 ++ stream stop es, by simp⟩
        obtain ⟨g', hg'⟩ := prefix_of_prefix_length_le hwho (prefix_append g _) (by simp; omega)
        rw [← hg', append_assoc, append_assoc, singleton_append] at h
        have hrest := List.cons.inj (append_cancel_left h)
        have hlen : g.length = e.1.length + 1 + g'.length := by rw [← hg']; simp; omega
        have hbody : e.2.length ≤ g'.length := by
          by_contra hlt
          exact hfir (.inl ⟨by omega, by omega⟩)
        obtain ⟨more, hmore, hstr⟩ := covers hrest.2 hbody
        obtain ⟨hle, -⟩ := ih (n := n + e.1.length + 1 + e.2.length) hes' hds hstr (by
          intro place hpla hin
          refine hapa place ?_ (.inr hin)
          rwa [show n + e.1.length + 1 + e.2.length + more.length = n + g.length by
            rw [hlen, hmore, length_append]; omega] at hpla)
        exact ⟨by omega, fun _ => by omega⟩

/-- Two rows of as much in their bodies are one row exactly if their names are apart from the bodies. -/
theorem eq_iff_apart (hes : ∀ r ∈ es, stop ∉ r.1) (hds : ∀ r ∈ ds, stop ∉ r.1) (h : stream stop ds = stream stop es)
    (hbod : bodies ds = bodies es) : ds = es ↔ Apart es ds := by
  constructor
  · rintro rfl place hpla
    exact not_inBody_of_mem_starts hpla
  intro hapa
  obtain ⟨-, heq⟩ := heads_le (g := []) hes hds h hapa
  have hlen := congrArg List.length h
  rw [length_stream, length_stream] at hlen
  exact heq (by omega)

end OpenAgent.Records
