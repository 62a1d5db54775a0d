import Mathlib.Data.List.TakeWhile

namespace OpenAgent.HostTools.DaemonStdinReader

open List

abbrev Bytes := List UInt8

def newline : UInt8 := 10

/-- `while b"\n" in pending`: the lines that are split off, and the `pending` that is left. -/
def splitPending (pending : Bytes) : List Bytes × Bytes :=
  if newline ∈ pending then
    let rest := (pending.dropWhile (· ≠ newline)).tail
    let (lines, left) := splitPending rest
    ((pending.takeWhile (· ≠ newline) ++ [newline]) :: lines, left)
  else ([], pending)
termination_by pending.length
decreasing_by
  have hle := (List.dropWhile_sublist (l := pending) (· ≠ newline)).length_le
  have hpos := List.length_pos_of_mem ‹newline ∈ pending›
  rw [List.length_tail]
  omega

/-- What `_read` queues: `chunks` are the reads up to the one that returns nothing or raises. -/
def read (pending : Bytes) : List Bytes → List Bytes
  | [] => [pending]
  | chunk :: chunks =>
    let (lines, left) := splitPending (pending ++ chunk)
    lines ++ read left chunks

/-- What successive calls of `readline` return; a call past the last of them waits for ever. -/
def readlines (chunks : List Bytes) : List Bytes := read [] chunks

/-- The newline-terminated lines of a stream and the remainder behind them. -/
structure Lines (stream : Bytes) (lines : List Bytes) (left : Bytes) : Prop where
  whole : lines.flatten ++ left = stream
  terminated : ∀ line ∈ lines, ∃ text, newline ∉ text ∧ line = text ++ [newline]
  unterminated : newline ∉ left

/-- The lines in order, then the remainder where there is one, then the end-of-file marker. -/
def Announced (stream : Bytes) (values : List Bytes) : Prop :=
  ∃ lines left, Lines stream lines left ∧ values = lines ++ (if left = [] then [] else [left]) ++ [[]]

theorem lines_splitPending (pending : Bytes) : Lines pending (splitPending pending).1 (splitPending pending).2 := by
  fun_induction splitPending pending with
  | case1 pending hmem rest lines left heq ih =>
    rw [heq] at ih
    obtain ⟨hwho, hlin, hleft⟩ := ih
    have hcut : pending.takeWhile (· ≠ newline) ++ newline :: rest = pending := by
      have hne : pending.dropWhile (· ≠ newline) ≠ [] := by
        intro hnil
        exact absurd (dropWhile_eq_nil_iff.mp hnil newline hmem) (by simp)
      have hhead : (pending.dropWhile (· ≠ newline)).head hne = newline := by
        simpa using head_dropWhile_not (· ≠ newline) hne
      have hrest : pending.dropWhile (· ≠ newline) = newline :: rest :=
        (cons_head_tail hne).symm.trans (by rw [hhead])
      rw [← hrest, takeWhile_append_dropWhile]
    refine ⟨?_, ?_, hleft⟩
    · dsimp only at hwho ⊢
      rw [flatten_cons, append_assoc, hwho, append_assoc]
      exact hcut
    intro line hline
    rcases mem_cons.mp hline with rfl | hline
    · refine ⟨_, ?_, rfl⟩
      intro hin
      simpa using mem_takeWhile_imp hin
    · exact hlin line hline
  | case2 pending hmem => exact ⟨rfl, fun _ h => absurd h not_mem_nil, hmem⟩

variable {stream : Bytes}

theorem Lines.append {stream' left left' : Bytes} {lines lines' : List Bytes} (h : Lines stream lines left)
    (h' : Lines (left ++ stream') lines' left') : Lines (stream ++ stream') (lines ++ lines') left' := by
  refine ⟨?_, ?_, h'.unterminated⟩
  · rw [flatten_append, append_assoc, h'.whole, ← append_assoc, h.whole]
  · intro line hline
    exact (mem_append.mp hline).elim (h.terminated line) (h'.terminated line)

theorem read_lines {pending : Bytes} {seen : List Bytes} (h : Lines stream seen pending) (chunks : List Bytes) :
    ∃ lines left, Lines (stream ++ chunks.flatten) lines left ∧ seen ++ read pending chunks = lines ++ [left] := by
  induction chunks generalizing stream pending seen with
  | nil => exact ⟨seen, pending, by rwa [flatten_nil, append_nil], rfl⟩
  | cons chunk chunks ih =>
    have hnext : Lines (stream ++ chunk) (seen ++ (splitPending (pending ++ chunk)).1)
        (splitPending (pending ++ chunk)).2 := h.append (lines_splitPending _)
    obtain ⟨lines, left, hlin, heq⟩ := ih hnext
    refine ⟨lines, left, ?_, ?_⟩
    · rwa [flatten_cons, ← append_assoc]
    · rw [read, ← heq, append_assoc]

theorem readlines_lines (chunks : List Bytes) :
    ∃ lines left, Lines chunks.flatten lines left ∧ readlines chunks = lines ++ [left] :=
  read_lines (show Lines [] [] [] from ⟨rfl, fun _ h => absurd h not_mem_nil, not_mem_nil⟩) chunks

theorem left_eq_nil_of_announced {left : Bytes} {lines values : List Bytes} (h : Announced stream values)
    (hval : values = lines ++ [left]) : left = [] := by
  obtain ⟨lines', left', -, hann⟩ := h
  have hlast := congrArg List.getLast? (hval.symm.trans hann)
  rw [List.getLast?_concat, List.getLast?_concat] at hlast
  exact Option.some.inj hlast

theorem Lines.left_eq_nil_iff {left : Bytes} {lines : List Bytes} (h : Lines stream lines left) :
    left = [] ↔ ∀ b ∈ stream.getLast?, b = newline := by
  rw [← h.whole]
  constructor
  · rintro rfl b hb
    rw [append_nil] at hb
    rcases eq_nil_or_concat lines with rfl | ⟨before, last, rfl⟩
    · cases hb
    · obtain ⟨text, -, rfl⟩ := h.terminated last (by simp)
      simpa using hb.symm
  intro hends
  rcases eq_nil_or_concat left with hnil | ⟨before, b, rfl⟩
  · exact hnil
  · have hb := hends b (by simp)
    exact absurd h.unterminated (by simp [hb])

/-- A reader sees the end of input exactly where the input is empty or ends with a newline. -/
theorem readlines_announced_iff (chunks : List Bytes) :
    Announced chunks.flatten (readlines chunks) ↔ ∀ b ∈ chunks.flatten.getLast?, b = newline := by
  obtain ⟨lines, left, hlin, hval⟩ := readlines_lines chunks
  rw [← hlin.left_eq_nil_iff]
  constructor
  · intro h
    exact left_eq_nil_of_announced h hval
  intro hleft
  refine ⟨lines, left, hlin, ?_⟩
  rw [if_pos hleft, append_nil, ← hleft]
  exact hval

/-- A request without its newline is handed out, and the call after it waits for ever. -/
theorem unterminated_not_announced : ¬ Announced [123, 125] (readlines [[123, 125]]) := by
  intro h
  have hval : readlines [[123, 125]] = [] ++ [[123, 125]] := by simp [readlines, read, splitPending, newline]
  exact absurd (left_eq_nil_of_announced h hval) (by decide)

end OpenAgent.HostTools.DaemonStdinReader
