import Conduit.Connector.Lines
import Conduit.Proofs.Text.Utf8

/-!
# Lines that are read

What a line reader has not given yet is what it has fetched but not used, and what stands in the
file behind that (`LineReader.unread`). Its first line is given next, whatever blocks it comes in
(`LineReader.next_line`), and the rest is left. Where nothing is unread nothing is given
(`LineReader.nextFilled_end`).
-/

namespace Conduit.LineReader

variable {r : LineReader} {content line rest : Bytes} {fuel : Nat}

/-- What the reader has not given yet. -/
def unread (content : Bytes) (r : LineReader) : Bytes := r.buffer ++ content.drop r.place

theorem unread_start (content : Bytes) : ({} : LineReader).unread content = content := rfl

/-! ## Blocks -/

/-- Fetching a block changes nothing in what is unread. -/
theorem unread_fetch (hbuffer : r.buffer = []) :
    (r.fetch content).unread content = r.unread content := by
  rw [unread, unread, hbuffer, fetch]
  dsimp only
  rw [← List.drop_drop]
  exact List.prefix_iff_eq_append.1 (List.take_prefix _ _)

theorem buffer_fetch_eq_nil_iff : (r.fetch content).buffer = [] ↔ content.drop r.place = [] := by
  change (content.drop r.place).take blockSize = [] ↔ _
  rw [List.take_eq_nil_iff]
  exact or_iff_right (by decide)

/-- The fuel that one line takes at most: as much as there are blocks to fetch, and one more if
something is in the buffer. -/
def need (content : Bytes) (r : LineReader) : Nat :=
  (content.length - r.place) / blockSize + if r.buffer = [] then 1 else 2

theorem need_le (content : Bytes) (r : LineReader) :
    need content r ≤ content.length / blockSize + 2 := by
  have := Nat.div_le_div_right (c := blockSize) (Nat.sub_le content.length r.place)
  unfold need
  split <;> omega

theorem need_pos (content : Bytes) (r : LineReader) : 0 < need content r := by
  refine Nat.add_pos_right _ ?_
  split <;> decide

theorem need_emptied (content : Bytes) (hfilled : r.buffer ≠ []) :
    need content { r with buffer := [] } + 1 = need content r := by
  rw [need, need, if_pos rfl, if_neg hfilled]

/-- A block is full unless it is the last one. -/
theorem need_fetch (hbuffer : r.buffer = []) (h : content.drop (r.fetch content).place ≠ []) :
    need content ⟨(r.fetch content).place, []⟩ + 1 = need content r := by
  rw [ne_eq, List.drop_eq_nil_iff, Nat.not_le] at h
  simp only [need, fetch, blockSize, hbuffer, if_true, List.length_take, List.length_drop] at h ⊢
  omega

/-! ## A line -/

/-- Before the newline, and before nothing else, a line ends. -/
theorem takeWhile_line (hline : 0x0a ∉ line) (more : Bytes) :
    (line ++ more).takeWhile (· != 0x0a) = line ++ more.takeWhile (· != 0x0a) :=
  List.takeWhile_append_of_pos fun _ hb ↦ bne_iff_ne.2 (ne_of_mem_of_not_mem hb hline)

/-- The line is in the buffer. -/
theorem take_of_buffer {more : Bytes} (hline : 0x0a ∉ line)
    (hbuffer : r.buffer = line ++ 0x0a :: more) :
    take content (fuel + 1) r = (line ++ [0x0a], { r with buffer := more }) := by
  have hfilled : r.buffer.isEmpty = false := by rw [hbuffer]; simp
  have hwhile : r.buffer.takeWhile (· != 0x0a) = line := by
    rw [hbuffer, takeWhile_line hline]
    exact List.append_nil line
  rw [take]
  simp only [hfilled, Bool.false_eq_true, if_false]
  rw [hwhile, hbuffer, List.drop_left]

/-- The line begins with the buffer. -/
theorem take_of_notMem (hfilled : r.buffer ≠ []) (hline : 0x0a ∉ r.buffer) :
    take content (fuel + 1) r =
      (r.buffer ++ (take content fuel { r with buffer := [] }).1,
        (take content fuel { r with buffer := [] }).2) := by
  have hwhile : r.buffer.takeWhile (· != 0x0a) = r.buffer := by
    simpa using takeWhile_line hline []
  rw [take]
  simp only [List.isEmpty_eq_false_iff.2 hfilled, Bool.false_eq_true, if_false]
  rw [hwhile, List.drop_length]

/-- The next block comes first. -/
theorem take_of_fetch (hbuffer : r.buffer = []) (hfilled : (r.fetch content).buffer ≠ []) :
    take content (fuel + 1) r = take content (fuel + 1) (r.fetch content) := by
  rw [take, take]
  simp only [hbuffer, List.isEmpty_nil, if_true, List.isEmpty_eq_false_iff.2 hfilled,
    Bool.false_eq_true, if_false]

/-- The reader gives a line and leaves the rest. -/
def Takes (content : Bytes) (fuel : Nat) (r : LineReader) (line rest : Bytes) : Prop :=
  ∃ r', take content fuel r = (line ++ [0x0a], r') ∧ r'.unread content = rest

/-- With something in the buffer the line is there, or it goes on in the file. -/
theorem takes_of_buffer (hfilled : r.buffer ≠ []) (hline : 0x0a ∉ line)
    (hunread : r.unread content = line ++ 0x0a :: rest)
    (hmore : ∀ line', 0x0a ∉ line' → content.drop r.place = line' ++ 0x0a :: rest →
      Takes content fuel { r with buffer := [] } line' rest) :
    Takes content (fuel + 1) r line rest := by
  have hgoes : ∀ line', line = r.buffer ++ line' → content.drop r.place = line' ++ 0x0a :: rest →
      Takes content (fuel + 1) r line rest := by
    rintro line' hsplit htail
    obtain ⟨hbuffer, hline'⟩ : 0x0a ∉ r.buffer ∧ 0x0a ∉ line' := by
      rwa [hsplit, List.mem_append, not_or] at hline
    obtain ⟨r', htake, hrest⟩ := hmore line' hline' htail
    refine ⟨r', ?_, hrest⟩
    rw [take_of_notMem hfilled hbuffer, htake, hsplit, List.append_assoc]
  rcases List.append_eq_append_iff.1 hunread with ⟨line', hsplit, htail⟩ | ⟨more, hbuffer, htail⟩
  · exact hgoes line' hsplit htail
  · cases more with
    | nil => exact hgoes [] (by simpa using hbuffer.symm) htail.symm
    | cons b more =>
      obtain ⟨rfl, rfl⟩ := List.cons.inj htail
      exact ⟨_, take_of_buffer hline hbuffer, rfl⟩

/-- The first line of what is unread is given next. By induction on the fuel, of which each block
takes a part. -/
theorem takes_line (hline : 0x0a ∉ line) (hunread : r.unread content = line ++ 0x0a :: rest)
    (hfuel : need content r ≤ fuel) : Takes content fuel r line rest := by
  induction fuel generalizing r line with
  | zero => exact absurd hfuel (Nat.not_le.2 (need_pos content r))
  | succ fuel ih =>
    by_cases hbuffer : r.buffer = []
    · have hfilled : (r.fetch content).buffer ≠ [] := by
        rw [ne_eq, buffer_fetch_eq_nil_iff]
        intro hnone
        rw [unread, hbuffer, hnone] at hunread
        simp at hunread
      rw [← unread_fetch hbuffer] at hunread
      obtain ⟨r', htake⟩ := takes_of_buffer hfilled hline hunread fun line' hline' htail ↦ by
        have := need_fetch hbuffer (by rw [htail]; simp)
        exact ih hline' htail (by omega)
      exact ⟨r', by rwa [take_of_fetch hbuffer hfilled]⟩
    · have := need_emptied content hbuffer
      exact takes_of_buffer hbuffer hline hunread fun line' hline' htail ↦
        ih hline' htail (by omega)

theorem take_end (hunread : r.unread content = []) :
    ∃ r', take content fuel r = ([], r') := by
  obtain ⟨hbuffer, hdrop⟩ := List.append_eq_nil_iff.1 hunread
  cases fuel with
  | zero => exact ⟨r, rfl⟩
  | succ fuel =>
    refine ⟨r.fetch content, ?_⟩
    rw [take]
    simp only [hbuffer, List.isEmpty_nil, if_true, buffer_fetch_eq_nil_iff.2 hdrop]

/-! ## A line as text -/

/-- Only the newline is cut off where no carriage return stands before it. -/
theorem chomp_line (hreturn : line.getLast? ≠ some 0x0d) : chomp (line ++ [0x0a]) = line := by
  rw [chomp, List.reverse_append]
  cases hback : line.reverse with
  | nil => simpa using hback.symm
  | cons b back =>
    have hb : b ≠ 0x0d := by
      rintro rfl
      rw [← List.head?_reverse, hback] at hreturn
      exact hreturn rfl
    split
    · rename_i heq
      exact absurd (List.cons.inj (List.cons.inj heq).2).1 hb
    · rename_i heq
      obtain rfl : b :: back = _ := (List.cons.inj heq).2
      rw [← hback, List.reverse_reverse]
    · rename_i hother
      exact absurd rfl (hother _)

/-- The first line of what is unread is given as text. -/
theorem next_line {text : String} (hline : 0x0a ∉ line) (hreturn : line.getLast? ≠ some 0x0d)
    (htext : Utf8.decode line = .ok text) (hunread : r.unread content = line ++ 0x0a :: rest) :
    ∃ r', next content r = (some (.ok text), r') ∧ r'.unread content = rest := by
  obtain ⟨r', htake, hrest⟩ := takes_line hline hunread (need_le content r)
  refine ⟨r', ?_, hrest⟩
  rw [next, htake]
  split
  · rename_i heq
    exact absurd (congrArg Prod.fst heq) (by simp)
  · rename_i heq
    obtain ⟨rfl, rfl⟩ := Prod.mk.inj heq
    rw [chomp_line hreturn, htext]
    rfl

/-- A line that is not blank is given at once. -/
theorem nextFilled_line (fuel : Nat) {text : String} (hline : 0x0a ∉ line)
    (hreturn : line.getLast? ≠ some 0x0d) (htext : Utf8.decode line = .ok text)
    (hfilled : text.toList.all Text.isBlank = false)
    (hunread : r.unread content = line ++ 0x0a :: rest) :
    ∃ r', nextFilled content (fuel + 1) r = (some (.ok text), r') ∧ r'.unread content = rest := by
  obtain ⟨r', hnext, hrest⟩ := next_line hline hreturn htext hunread
  refine ⟨r', ?_, hrest⟩
  rw [nextFilled, hnext]
  simp only [hfilled, Bool.false_eq_true, if_false]

/-- Where nothing is unread nothing is given. -/
theorem nextFilled_end (fuel : Nat) (hunread : r.unread content = []) :
    ∃ r', nextFilled content (fuel + 1) r = (none, r') := by
  obtain ⟨r', htake⟩ := take_end hunread
  refine ⟨r', ?_⟩
  rw [nextFilled, next, htake]

end Conduit.LineReader
