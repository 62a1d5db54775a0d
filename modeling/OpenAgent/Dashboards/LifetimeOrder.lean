import OpenAgent.Dashboards.Lifetimes

namespace OpenAgent.Dashboards

open Py List Option

namespace Datum

def Before (a b : Datum) : Prop := a.order < b.order ∧ a.version < b.version

/-- What stands for a datum that was emitted: of its generation, and not behind it. -/
structure Holds (row n : Datum) : Prop where
  version : n.version ≤ row.version
  generation : row.generation = n.generation
  sequence : n.sequence ≤ row.sequence

variable {a b c n row : Datum}

theorem order_lt_iff : a.order < b.order ↔
    a.generation < b.generation ∨ a.generation = b.generation ∧ a.sequence < b.sequence :=
  Prod.Lex.toLex_lt_toLex

theorem Before.trans (hab : a.Before b) (hbc : b.Before c) : a.Before c := ⟨hab.1.trans hbc.1, hab.2.trans hbc.2⟩

theorem Holds.refl (d : Datum) : d.Holds d := ⟨Nat.le_refl _, rfl, Nat.le_refl _⟩

theorem Holds.trans (hab : a.Holds b) (hbc : b.Holds c) : a.Holds c :=
  ⟨hbc.version.trans hab.version, hab.generation.trans hbc.generation, hbc.sequence.trans hab.sequence⟩

end Datum

/-- What is published over a datum that holds the newest comes after it, unless its generation is lower. -/
theorem Publication.before_iff {p : Publication} {base n d : Datum} {now : Int} (hb : base.Holds n)
    (h : p.datum (some base) now = some d) : n.Before d ↔ n.generation ≤ d.generation := by
  have hsta : d.version = base.version + 1 ∧ d.sequence = base.sequence + 1 := by
    cases p with
    | value generation w =>
      obtain ⟨value, -, rfl⟩ := map_eq_some_iff.mp h
      exact ⟨rfl, rfl⟩
    | error generation code =>
      cases h
      exact ⟨rfl, rfl⟩
  have hver := hb.version
  have hsequ := hb.sequence
  rw [Datum.Before, Datum.order_lt_iff, hsta.1, hsta.2]
  omega

theorem Commit.row_holds {c : Commit} {old row : Datum} {now : Int} (h : c.row (some old) now = some row) :
    row.Holds old ∧ old.Before row := by
  have hsta : row.version = old.version + 1 ∧ row.generation = old.generation ∧ row.sequence = old.sequence + 1 := by
    rw [Commit.row] at h
    split at h
    · cases h
    · obtain ⟨value, -, rfl⟩ := map_eq_some_iff.mp h
      exact ⟨rfl, rfl, rfl⟩
  obtain ⟨hver, hgen, hsequ⟩ := hsta
  refine ⟨⟨by omega, hgen, by omega⟩, ?_, by omega⟩
  exact Datum.order_lt_iff.mpr (.inr ⟨hgen.symm, by omega⟩)

/-- The row after a checkpoint holds its datum where the guard let it through, or the row was not behind. -/
theorem checkpointRow_holds_iff (stored : Option Datum) (d : Datum) (now : Int) :
    (checkpointRow stored d now).Holds d ↔ ∀ row, stored = some row → d.supersedes row = true ∨ row.Holds d := by
  rw [checkpointRow.eq_def]
  cases stored with
  | none => exact iff_of_true ⟨Nat.le_refl _, rfl, Nat.le_refl _⟩ (fun _ h => by cases h)
  | some old =>
    dsimp only
    split
    · next hs =>
        refine iff_of_true ⟨Nat.le_refl _, rfl, Nat.le_refl _⟩ ?_
        rintro row ⟨⟩
        exact .inl hs
    next hs =>
      constructor
      · rintro h row ⟨⟩
        exact .inr h
      · exact fun h => (h old rfl).resolve_left hs

namespace Course

def newest (s : Course) : Option Datum := s.emitted.getLast?

structure Formed (s : Course) : Prop where
  live : ∀ d, s.live = some d → s.newest = some d
  pending : ∀ d, s.pending = some d → s.live = some d
  loads : ∀ p, s.inside = some (.loads p) → s.live = none
  flushes : ∀ d commit, s.inside = some (.flushes d commit) → s.live = some d ∧ s.pending = none
  writes : ∀ c, s.inside = some (.writes c) → s.pending = none
  written : ∀ row, s.inside = some (.written row) → s.stored = some row ∧ s.pending = none

def RowHolds (s : Course) (n : Datum) : Prop := ∃ row, s.stored = some row ∧ row.Holds n

def Recoverable (s : Course) (n : Datum) : Prop :=
  s.pending = some n ∨ (∃ commit, s.inside = some (.flushes n commit)) ∨ s.RowHolds n

structure Sound (s : Course) : Prop where
  ordered : s.emitted.Pairwise Datum.Before
  based : s.live = none → ∀ n, s.newest = some n → s.RowHolds n
  recoverable : ∀ n, s.newest = some n → s.Recoverable n
  ready : ∀ row n, s.inside = some (.written row) → s.newest = some n → row.Holds n ∧ n.Before row

def published (s : Course) : CourseEvent → Option Datum
  | .publishes t tick now =>
    match s.producers[t]?, s.inside with
    | some ⟨generation, false⟩, none => s.live.bind fun c => (tick.publication generation).datum (some c) now
    | _, _ => none
  | .loads now =>
    match s.inside with
    | some (.loads p) => p.datum s.stored now
    | _ => none
  | _ => none

def Ahead (s : Course) (e : CourseEvent) : Prop :=
  ∀ d n, s.published e = some d → s.newest = some n → n.generation ≤ d.generation

/-- No producer publishes that is older than the newest emission; a process ends in a crash, and a checkpoint
fails or is refused, only where the row has the newest emission already; a notification is of a newer datum
that is in the row. -/
def Orderly (s : Course) : CourseEvent → Prop
  | .writes _ => ∀ d commit row, s.inside = some (.flushes d commit) → s.stored = some row →
      d.supersedes row = true ∨ row.Holds d
  | .raises => ∀ d commit, s.inside = some (.flushes d commit) → s.RowHolds d
  | .notifies item => (∀ n, s.newest = some n → n.Before item) ∧ s.RowHolds item
  | .crashes => ∀ n, s.newest = some n → s.RowHolds n
  | e => s.Ahead e

variable {s t : Course} {d n : Datum}

theorem newest_concat (l : List Datum) (d : Datum) : (l ++ [d]).getLast? = some d := List.getLast?_concat

theorem pairwise_concat_iff {l : List Datum} (h : l.Pairwise Datum.Before) :
    (l ++ [d]).Pairwise Datum.Before ↔ ∀ n, l.getLast? = some n → n.Before d := by
  rw [pairwise_append]
  constructor
  · rintro ⟨-, -, hall⟩ n hn
    exact hall n (mem_of_getLast? hn) d (mem_singleton_self d)
  intro hlast
  refine ⟨h, pairwise_singleton _ _, fun a ha b hb => ?_⟩
  rw [mem_singleton.mp hb]
  obtain rfl | ⟨init, last, rfl⟩ := eq_nil_or_concat' l
  · cases ha
  have hb := hlast last (newest_concat init last)
  rcases mem_append.mp ha with ha | ha
  · exact ((pairwise_append.mp h).2.2 a ha last (mem_singleton_self last)).trans hb
  · rw [mem_singleton.mp ha]
    exact hb

theorem formed_published (hnewe : t.newest = some d) (hlive : t.live = some d) (hins : t.inside = none)
    (hpen : t.pending = none ∨ t.pending = some d) : t.Formed where
  live e he := by rw [hnewe, ← hlive, he]
  pending e he := by
    rcases hpen with hp | hp
    · rw [hp] at he
      cases he
    · rw [hlive, ← hp, he]
  loads p hp := by rw [hins] at hp; cases hp
  flushes e commit hp := by rw [hins] at hp; cases hp
  writes c hp := by rw [hins] at hp; cases hp
  written row hp := by rw [hins] at hp; cases hp

theorem sound_published (h : s.Sound) (hemi : t.emitted = s.emitted ++ [d]) (hlive : t.live = some d)
    (hins : t.inside = none) : t.Sound ↔ (∀ n, s.newest = some n → n.Before d) ∧ t.Recoverable d := by
  have hnewe : t.newest = some d := by rw [newest, hemi, newest_concat]
  constructor
  · intro ht
    refine ⟨(pairwise_concat_iff h.ordered).mp ?_, ht.recoverable d hnewe⟩
    rw [← hemi]
    exact ht.ordered
  rintro ⟨hbef, hrec⟩
  refine ⟨?_, fun hn => ?_, fun n hn => ?_, fun row n hrow => ?_⟩
  · rw [hemi]
    exact (pairwise_concat_iff h.ordered).mpr hbef
  · rw [hlive] at hn
    cases hn
  · rw [hnewe] at hn
    cases hn
    exact hrec
  · rw [hins] at hrow
    cases hrow

theorem Sound.base_holds (hf : s.Formed) (h : s.Sound) (hn : s.newest = some n) :
    ∃ base, (s.live.or s.stored) = some base ∧ base.Holds n := by
  cases hlive : s.live with
  | some c =>
    have hc : c = n := Option.some.inj ((hf.live c hlive).symm.trans hn)
    exact ⟨c, rfl, hc ▸ Datum.Holds.refl c⟩
  | none =>
    obtain ⟨row, hrow, hhol⟩ := h.based hlive n hn
    exact ⟨row, hrow, hhol⟩

theorem Formed.release (hf : s.Formed) : Formed { s with inside := none } where
  live := hf.live
  pending := hf.pending
  loads _ hp := by cases hp
  flushes _ _ hp := by cases hp
  writes _ hp := by cases hp
  written _ hp := by cases hp

theorem rowHolds_of_recoverable (hrec : s.Recoverable n) (hpen : s.pending = none)
    (hins : ∀ commit, s.inside ≠ some (.flushes n commit)) : s.RowHolds n := by
  rcases hrec with hp | ⟨commit, hp⟩ | hrow
  · rw [hpen] at hp
    cases hp
  · exact absurd hp (hins commit)
  · exact hrow

theorem sound_release (hf : s.Formed) (h : s.Sound) : Sound { s with inside := none } ↔
    ∀ d commit, s.inside = some (.flushes d commit) → s.RowHolds d := by
  constructor
  · intro ht d commit hins
    obtain ⟨hlive, hpen⟩ := hf.flushes d commit hins
    exact rowHolds_of_recoverable (s := { s with inside := none }) (ht.recoverable d (hf.live d hlive)) hpen nofun
  intro hsav
  refine ⟨h.ordered, h.based, fun n hn => ?_, fun _ _ hrow => (by cases hrow)⟩
  rcases h.recoverable n hn with hp | ⟨commit, hp⟩ | hrow
  · exact .inl hp
  · exact .inr (.inr (hsav n commit hp))
  · exact .inr (.inr hrow)

theorem publishOver_sound (hf : s.Formed) (h : s.Sound) (hins : ∀ d commit, s.inside ≠ some (.flushes d commit))
    (p : Publication) (now : Int) :
    (s.publishOver p (s.live.or s.stored) now).Formed ∧ ((s.publishOver p (s.live.or s.stored) now).Sound ↔
      ∀ d n, p.datum (s.live.or s.stored) now = some d → s.newest = some n → n.generation ≤ d.generation) := by
  rw [publishOver]
  split
  · next d hd =>
      refine ⟨formed_published (newest_concat _ _) rfl rfl (.inr rfl), ?_⟩
      rw [sound_published h rfl rfl rfl, and_iff_left (.inl rfl)]
      constructor
      · intro hbef e n he hn
        cases hd.symm.trans he
        obtain ⟨base, hbase, hhol⟩ := h.base_holds hf hn
        rw [hbase] at hd
        exact (Publication.before_iff hhol hd).mp (hbef n hn)
      intro hle n hn
      obtain ⟨base, hbase, hhol⟩ := h.base_holds hf hn
      have hgen := hle d n hd hn
      rw [hbase] at hd
      exact (Publication.before_iff hhol hd).mpr hgen
  next hd =>
    refine ⟨hf.release, iff_of_true ?_ ?_⟩
    · exact (sound_release hf h).mpr fun d commit hp => absurd hp (hins d commit)
    intro d n he
    rw [hd] at he
    cases he

theorem writes_of_map {commit : Option Commit} {i : Inside} (h : commit.map Inside.writes = some i) :
    ∃ c, i = .writes c := by
  obtain ⟨c, -, rfl⟩ := map_eq_some_iff.mp h
  exact ⟨c, rfl⟩

theorem flush_sound (hf : s.Formed) (h : s.Sound) (hins : s.inside = none) (commit : Option Commit) :
    (s.flush commit).Formed ∧ (s.flush commit).Sound := by
  rw [flush.eq_def]
  split
  · next d hd =>
      have hlive := hf.pending d hd
      refine ⟨⟨hf.live, fun _ hp => (by cases hp), fun _ hp => (by cases hp), ?_, fun _ _ => rfl, fun _ hp => (by cases hp)⟩,
        ⟨h.ordered, h.based, fun n hn => ?_, fun _ _ hrow => (by cases hrow)⟩⟩
      · rintro e _ ⟨⟩
        exact ⟨hlive, rfl⟩
      · have hnewe : d = n := Option.some.inj ((hf.live d hlive).symm.trans hn)
        exact .inr (.inl ⟨commit, by rw [hnewe]⟩)
  next hd =>
    refine ⟨⟨hf.live, hf.pending, fun _ hp => (writes_of_map hp).elim nofun, fun _ _ hp => (writes_of_map hp).elim nofun,
      fun _ _ => hd, fun _ hp => (writes_of_map hp).elim nofun⟩,
      ⟨h.ordered, h.based, fun n hn => ?_, fun _ _ hp => (writes_of_map hp).elim nofun⟩⟩
    have hrow : s.RowHolds n := rowHolds_of_recoverable (h.recoverable n hn) hd fun _ hp => by rw [hins] at hp; cases hp
    exact .inr (.inr hrow)

theorem checkpoint_sound (hf : s.Formed) (h : s.Sound) {commit : Option Commit}
    (hins : s.inside = some (.flushes d commit)) (now : Int) :
    let t := { s with stored := some (checkpointRow s.stored d now), inside := commit.map .writes }
    t.Formed ∧ (t.Sound ↔ ∀ row, s.stored = some row → d.supersedes row = true ∨ row.Holds d) := by
  obtain ⟨hlive, hpen⟩ := hf.flushes d commit hins
  have hnewe := hf.live d hlive
  refine ⟨⟨hf.live, hf.pending, fun _ hp => (writes_of_map hp).elim nofun, fun _ _ hp => (writes_of_map hp).elim nofun,
    fun _ _ => hpen, fun _ hp => (writes_of_map hp).elim nofun⟩, ?_⟩
  rw [← checkpointRow_holds_iff s.stored d now]
  constructor
  · intro ht
    obtain ⟨row, hrow, hhol⟩ := rowHolds_of_recoverable (ht.recoverable d hnewe) hpen
      fun _ hp => (writes_of_map hp).elim nofun
    cases hrow
    exact hhol
  intro hhol
  refine ⟨h.ordered, fun hn => ?_, fun n hn => ?_, fun _ _ hp => (writes_of_map hp).elim nofun⟩
  · rw [show s.live = none from hn] at hlive
    cases hlive
  · cases hnewe.symm.trans hn
    exact .inr (.inr ⟨_, rfl, hhol⟩)

theorem written_sound (hf : s.Formed) (h : s.Sound) {c : Commit} {row : Datum} {now : Int}
    (hins : s.inside = some (.writes c)) (hrow : c.row s.stored now = some row) :
    let t := { s with stored := some row, inside := some (.written row) }
    t.Formed ∧ t.Sound := by
  have hpen := hf.writes c hins
  have hnew : ∀ n, s.newest = some n → row.Holds n ∧ n.Before row := by
    intro n hn
    obtain ⟨old, hold, hhol⟩ := rowHolds_of_recoverable (h.recoverable n hn) hpen fun _ hp => by rw [hins] at hp; cases hp
    rw [hold] at hrow
    obtain ⟨hover, hbef⟩ := Commit.row_holds hrow
    refine ⟨hover.trans hhol, ?_⟩
    have hver := hhol.version
    have hsequ := hhol.sequence
    have hgen := hhol.generation
    rw [Datum.Before, Datum.order_lt_iff] at hbef ⊢
    omega
  refine ⟨⟨hf.live, hf.pending, fun _ hp => (by cases hp), fun _ _ hp => (by cases hp), fun _ hp => (by cases hp), ?_⟩,
    ⟨h.ordered, fun _ n hn => ⟨row, rfl, (hnew n hn).1⟩, fun n hn => .inr (.inr ⟨row, rfl, (hnew n hn).1⟩), ?_⟩⟩
  · rintro e ⟨⟩
    exact ⟨rfl, hpen⟩
  · rintro e n ⟨⟩ hn
    exact hnew n hn

theorem ended_sound (h : s.Sound) : s.ended.Formed ∧ (s.ended.Sound ↔ ∀ n, s.newest = some n → s.RowHolds n) := by
  refine ⟨⟨fun _ h => (by cases h), fun _ h => (by cases h), fun _ h => (by cases h), fun _ _ h => (by cases h),
    fun _ h => (by cases h), fun _ h => (by cases h)⟩, ?_⟩
  constructor
  · exact fun ht n hn => ht.based rfl n hn
  · exact fun hsav => ⟨h.ordered, fun _ => hsav, fun n hn => .inr (.inr (hsav n hn)), fun _ _ h => (by cases h)⟩

theorem sound_of_eq (hf : s.Formed) (h : s.Sound) (hlive : t.live = s.live) (hpen : t.pending = s.pending)
    (hins : t.inside = s.inside) (hsto : t.stored = s.stored) (hemi : t.emitted = s.emitted) :
    t.Formed ∧ t.Sound := by
  obtain ⟨live, generation, pending, inside, starts, producers, recorded, stored, emitted⟩ := t
  cases hlive
  cases hpen
  cases hins
  cases hsto
  cases hemi
  exact ⟨⟨hf.live, hf.pending, hf.loads, hf.flushes, hf.writes, hf.written⟩,
    ⟨h.ordered, h.based, h.recoverable, h.ready⟩⟩

variable {e : CourseEvent}

theorem ahead_of_silent (he : s.published e = none) : s.Ahead e := by
  intro d n hd
  rw [he] at hd
  cases hd

theorem sound_of_silent (he : s.published e = none) (h : t.Formed ∧ t.Sound) :
    t.Formed ∧ (t.Sound ↔ s.Ahead e) := ⟨h.1, iff_of_true h.2 (ahead_of_silent he)⟩

theorem next_sound (hf : s.Formed) (h : s.Sound) (he : s.next e = some t) :
    t.Formed ∧ (t.Sound ↔ s.Orderly e) := by
  cases e with
  | starts =>
    cases he
    refine sound_of_silent rfl ?_
    split
    · exact ⟨hf, h⟩
    · exact sound_of_eq hf h rfl rfl rfl rfl rfl
  | finds n launches =>
    rw [next.eq_def] at he
    dsimp only at he
    split at he
    · cases he
      exact sound_of_silent rfl (sound_of_eq hf h rfl rfl rfl rfl rfl)
    · cases he
  | reads n =>
    rw [next.eq_def] at he
    dsimp only at he
    split at he
    · cases he
      exact sound_of_silent rfl (sound_of_eq hf h rfl rfl rfl rfl rfl)
    · cases he
  | launches n =>
    rw [next.eq_def] at he
    dsimp only at he
    split at he
    · cases he
      exact sound_of_silent rfl (sound_of_eq hf h rfl rfl rfl rfl rfl)
    · cases he
  | stops =>
    cases he
    exact sound_of_silent rfl (sound_of_eq hf h rfl rfl rfl rfl rfl)
  | ends k =>
    cases he
    exact sound_of_silent rfl (sound_of_eq hf h rfl rfl rfl rfl rfl)
  | publishes k tick now =>
    rw [next.eq_def] at he
    dsimp only at he
    rw [Orderly.eq_def]
    dsimp only [Ahead, published]
    split at he
    · next generation hk hins =>
        try rw [hk, hins]
        try dsimp only
        split at he
        · next c hlive =>
            cases he
            have hpub := publishOver_sound hf h (fun d commit hp => by rw [hins] at hp; cases hp)
              (tick.publication generation) now
            rw [hlive] at hpub ⊢
            exact hpub
        next hlive =>
          cases he
          refine ⟨⟨hf.live, hf.pending, fun _ _ => hlive, fun _ _ hp => (by cases hp), fun _ hp => (by cases hp),
            fun _ hp => (by cases hp)⟩, iff_of_true ?_ fun d n hd => ?_⟩
          · refine ⟨h.ordered, h.based, fun n hn => ?_, fun _ _ hp => (by cases hp)⟩
            exact .inr (.inr (h.based hlive n hn))
          · rw [hlive] at hd
            cases hd
    · cases he
  | commits c =>
    rw [next.eq_def] at he
    dsimp only at he
    split at he
    · cases he
    next hins =>
      cases he
      exact sound_of_silent rfl (flush_sound hf h (not_isSome_iff_eq_none.mp hins) (some c))
  | checkpoints =>
    rw [next.eq_def] at he
    dsimp only at he
    split at he
    · cases he
    next hins =>
      cases he
      exact sound_of_silent rfl (flush_sound hf h (not_isSome_iff_eq_none.mp hins) none)
  | loads now =>
    rw [next.eq_def] at he
    dsimp only at he
    rw [Orderly.eq_def]
    dsimp only [Ahead, published]
    split at he
    · next p hins =>
        cases he
        have hpub := publishOver_sound hf h (fun d commit hp => by rw [hins] at hp; cases hp) p now
        rw [hf.loads p hins] at hpub
        try rw [hins]
        exact hpub
    · cases he
  | writes now =>
    rw [next.eq_def] at he
    dsimp only at he
    split at he
    · next d commit hins =>
        cases he
        obtain ⟨hfor, hsou⟩ := checkpoint_sound hf h hins now
        refine ⟨hfor, hsou.trans ?_⟩
        constructor
        · intro hgua e f row he hrow
          cases hins.symm.trans he
          exact hgua row hrow
        · exact fun hord row hrow => hord d commit row hins hrow
    · next c hins =>
        obtain ⟨row, hrow, rfl⟩ := map_eq_some_iff.mp he
        have hwri := written_sound hf h hins hrow
        refine ⟨hwri.1, iff_of_true hwri.2 ?_⟩
        intro d commit old hp
        rw [hins] at hp
        cases hp
    · cases he
  | returns =>
    rw [next.eq_def] at he
    dsimp only at he
    split at he
    · next row hins =>
        cases he
        obtain ⟨hrow, -⟩ := hf.written row hins
        refine ⟨formed_published (newest_concat _ _) rfl rfl (.inl rfl), ?_⟩
        rw [sound_published h rfl rfl rfl]
        refine iff_of_true ⟨fun n hn => (h.ready row n hins hn).2, ?_⟩ (ahead_of_silent rfl)
        exact .inr (.inr ⟨row, hrow, .refl row⟩)
    · cases he
  | raises =>
    rw [next.eq_def] at he
    dsimp only at he
    split at he
    · cases he
      exact ⟨hf.release, sound_release hf h⟩
    · cases he
  | notifies item =>
    rw [next.eq_def] at he
    dsimp only at he
    split at he
    · cases he
    cases he
    refine ⟨formed_published (newest_concat _ _) rfl rfl (.inl rfl), ?_⟩
    rw [sound_published h rfl rfl rfl]
    refine and_congr Iff.rfl ?_
    constructor
    · rintro (hp | ⟨_, hp⟩ | hrow)
      · cases hp
      · cases hp
      · exact hrow
    · exact fun hrow => .inr (.inr hrow)
  | crashes =>
    cases he
    exact ended_sound h
  | closes =>
    rw [next.eq_def] at he
    dsimp only at he
    split at he
    · cases he
    next hqui =>
      cases he
      rw [Bool.or_eq_true, not_or, not_isSome_iff_eq_none, not_isSome_iff_eq_none] at hqui
      obtain ⟨hins, hpen⟩ := hqui
      refine ⟨(ended_sound h).1, iff_of_true ((ended_sound h).2.mpr fun n hn => ?_) (ahead_of_silent rfl)⟩
      exact rowHolds_of_recoverable (h.recoverable n hn) hpen fun _ hp => by rw [hins] at hp; cases hp

def restored (stored : Option Datum) : Course := { stored }

theorem formed_restored (stored : Option Datum) : (restored stored).Formed where
  live _ h := by cases h
  pending _ h := by cases h
  loads _ h := by cases h
  flushes _ _ h := by cases h
  writes _ h := by cases h
  written _ h := by cases h

theorem sound_restored (stored : Option Datum) : (restored stored).Sound where
  ordered := .nil
  based _ _ h := by cases h
  recoverable _ h := by cases h
  ready _ _ h := by cases h

/-- Over any lifetimes, what is emitted rises and is never lost exactly where every step is orderly; a client that
keeps the greatest pair ends up with the latest emission then. -/
theorem emissions_rise (stored : Option Datum) (es : List CourseEvent) (s : Course)
    (h : Runs.run next (restored stored) es = some s) :
    ((∀ pre post u, es = pre ++ post → Runs.run next (restored stored) pre = some u → u.Sound) ↔
        Runs.Meets next Orderly (restored stored) es) ∧
      (Runs.Meets next Orderly (restored stored) es → s.emitted.Pairwise Datum.Before ∧
        ∀ n, s.newest = some n → ∀ d ∈ s.emitted, d = n ∨ d.Before n) := by
  have hiff : (∀ pre post u, es = pre ++ post → Runs.run next (restored stored) pre = some u → u.Sound) ↔
      Runs.Meets next Orderly (restored stored) es := by
    have hstep : ∀ u e v, True → u.Formed ∧ u.Sound → next u e = some v →
        (v.Sound ↔ u.Orderly e) ∧ (v.Sound → v.Formed ∧ v.Sound) := by
      intro u e v _ hu he
      obtain ⟨hfor, hsou⟩ := next_sound hu.1 hu.2 he
      exact ⟨hsou, fun hv => ⟨hfor, hv⟩⟩
    exact Runs.always_iff_meets_of (fun _ h => h.2) (fun _ _ _ _ _ => trivial) hstep trivial
      ⟨formed_restored stored, sound_restored stored⟩ h
  refine ⟨hiff, fun hmee => ?_⟩
  have hord := (hiff.mpr hmee es [] s (append_nil es).symm h).ordered
  refine ⟨hord, fun n hn d hd => ?_⟩
  obtain hnil | ⟨init, last, hlast⟩ := eq_nil_or_concat' s.emitted
  · rw [hnil] at hd
    cases hd
  rw [newest, hlast, newest_concat] at hn
  cases hn
  rw [hlast] at hd hord
  rcases mem_append.mp hd with hd | hd
  · exact .inr ((pairwise_append.mp hord).2.2 d hd n (mem_singleton_self n))
  · exact .inl (mem_singleton.mp hd)

instance rowHolds_decidable (s : Course) (n : Datum) : Decidable (s.RowHolds n) :=
  decidable_of_iff (∃ row ∈ s.stored, n.version ≤ row.version ∧ row.generation = n.generation ∧ n.sequence ≤ row.sequence)
    ⟨fun ⟨row, hrow, hv, hg, hs⟩ => ⟨row, hrow, hv, hg, hs⟩, fun ⟨row, hrow, h⟩ => ⟨row, hrow, h.1, h.2, h.3⟩⟩

instance ahead_decidable (s : Course) (e : CourseEvent) : Decidable (s.Ahead e) :=
  decidable_of_iff (∀ d ∈ s.published e, ∀ n ∈ s.newest, n.generation ≤ d.generation)
    ⟨fun h d n hd hn => h d hd n hn, fun h d hd n hn => h d n hd hn⟩

def orderlyTest (s : Course) : CourseEvent → Bool
  | .writes _ =>
    match s.inside, s.stored with
    | some (.flushes d _), some row => d.supersedes row
    | _, _ => true
  | .crashes => s.newest.all fun n => decide (s.RowHolds n)
  | .raises | .notifies _ => false
  | e => decide (s.Ahead e)

theorem orderly_of_test (h : s.orderlyTest e = true) : s.Orderly e := by
  cases e with
  | writes now =>
    rw [orderlyTest] at h
    intro d commit row hins hsto
    rw [hins, hsto] at h
    exact .inl h
  | crashes =>
    intro n hn
    rw [orderlyTest, hn] at h
    exact of_decide_eq_true h
  | raises | notifies => cases h
  | _ => exact of_decide_eq_true (p := s.Ahead _) h

def clockStart : List CourseEvent := [.starts, .finds 0 true, .reads 0, .launches 0]

def clockTick (time : String) : CourseEvent := .publishes 0 (.value { value := .str time }) 0

def checkpointedRun : List CourseEvent :=
  clockStart ++ [clockTick "12:00", .loads 0, .checkpoints, .writes 0, .crashes] ++ clockStart ++
    [clockTick "12:01", .loads 0]

theorem checkpointedRun_rises : ∃ s, Runs.run next (restored none) checkpointedRun = some s ∧
    s.emitted.length = 2 ∧ s.emitted.Pairwise Datum.Before := by
  have hrun : (Runs.run next (restored none) checkpointedRun).any (fun s => s.emitted.length = 2) = true := by
    decide +kernel
  obtain ⟨s, hs, hlen⟩ := (any_eq_true _ _).mp hrun
  have hall : Runs.all orderlyTest next (restored none) checkpointedRun = true := by decide +kernel
  exact ⟨s, hs, of_decide_eq_true hlen,
    ((emissions_rise none checkpointedRun s hs).2 (Runs.meets_of_all (fun _ _ => orderly_of_test) hall)).1⟩

def crashedRun : List CourseEvent :=
  clockStart ++ [clockTick "12:00", .loads 0, .crashes] ++ clockStart ++ [clockTick "12:01", .loads 0]

theorem crash_repeats_order : ¬ ∀ (stored : Option Datum) (es : List CourseEvent) (s : Course),
    Runs.run next (restored stored) es = some s → s.emitted.Pairwise Datum.Before := by
  intro hcla
  have hrun : (Runs.run next (restored none) crashedRun).any
      (fun s => s.emitted.map (fun d => (d.generation, d.sequence, d.version)) = [(1, 1, 1), (1, 1, 1)]) = true := by
    decide +kernel
  obtain ⟨s, hs, hend⟩ := (any_eq_true _ _).mp hrun
  have hsta := of_decide_eq_true hend
  have hord := hcla none crashedRun s hs
  have hver := (hord.imp And.right).map (S := fun a b => a.2.2 < b.2.2)
    (fun d : Datum => (d.generation, d.sequence, d.version)) (fun _ _ h => h)
  rw [hsta, pairwise_pair] at hver
  exact absurd hver (by decide)

end Course

end OpenAgent.Dashboards
