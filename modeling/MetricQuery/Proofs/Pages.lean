import MetricQuery.Pages

/-!
# Pages divide the rows

The pages of a list of rows, one after the other, are the rows. Each page up to the last
one holds rows, as many as a page can take if another page follows. Which pages there are
and where each of them starts is computed apart, by a division that is rounded up and by a
product. The two agree because a page has a row exactly if its first position is in front
of the end: the number of a page is below the count of pages if and only if that many
full pages take fewer rows than there are.

A position that does not fit a word is replaced by the largest word, which no row is
behind. So the page that is cut out from words is the page of the exact positions, also
where a product or a sum is out of range. Cutting fails where a position is behind the rows
or two positions are out of order, and a sum of words fails where it is no word, and
neither ever happens.
-/

namespace MetricQuery

variable {α : Type} {rows : List α} {size page : Nat}

namespace Word

/-- The word nearest to a number: the number, or the largest word if it is larger. -/
def saturated (value : Nat) : Nat := min value largest

/-- The sum of two words, if it is a word. -/
def sum? (first second : Nat) : Option Nat :=
  if first + second ≤ largest then some (first + second) else none

end Word

/-- The rows from a position up to another one, if the positions are in order and none of
them is behind the rows. -/
def rowsBetween? (rows : List α) (start stop : Nat) : Option (List α) :=
  if start ≤ stop ∧ stop ≤ rows.length then some ((rows.take stop).drop start) else none

/-- The number of pages in words: the full ones, and one more if rows are left over. -/
def pageCountInWords? (rows size : Nat) : Option Nat :=
  if size = 0 then some 0
  else if rows % size = 0 then some (rows / size)
  else Word.sum? (rows / size) 1

/-- The rows of a page, cut out between positions that are words. -/
def pageInWords? (rows : List α) (page size : Nat) : Option (List α) :=
  let start := Word.saturated ((page - 1) * size)
  if rows.length ≤ start then some []
  else rowsBetween? rows start (min (Word.saturated (start + size)) rows.length)

/-! ## Counting pages -/

/-- A number is below the count of pages if that many pages leave a row over. -/
theorem lt_pageCount_iff (some : 0 < size) (rows : Nat) :
    page < pageCount rows size ↔ page * size < rows := by
  have step : (page + 1) * size = page * size + size := Nat.succ_mul page size
  rw [pageCount, if_neg (Nat.ne_of_gt some), Nat.lt_iff_add_one_le, Nat.le_div_iff_mul_le some,
    step]
  omega

/-- The count of pages in words never leaves the range of words and is the count of pages. -/
theorem pageCountInWords?_eq {rows : Nat} (fits : rows ≤ Word.largest) (size : Nat) :
    pageCountInWords? rows size = some (pageCount rows size) := by
  rw [pageCountInWords?, pageCount]
  by_cases none : size = 0
  · rw [if_pos none, if_pos none]
  · rw [if_neg none, if_neg none]
    have positive : 0 < size := Nat.pos_of_ne_zero none
    have whole : size * (rows / size) + rows % size = rows := Nat.div_add_mod rows size
    have short : rows % size < size := Nat.mod_lt rows positive
    have inside : rows / size ≤ size * (rows / size) := Nat.le_mul_of_pos_left _ positive
    by_cases exact : rows % size = 0
    · have rounded : (rows + (size - 1)) / size = rows / size := by
        refine Nat.div_eq_of_lt_le ?_ ?_
        · rw [Nat.mul_comm]
          omega
        · rw [Nat.succ_mul, Nat.mul_comm (rows / size)]
          omega
      rw [if_pos exact, rounded]
    · have rounded : (rows + (size - 1)) / size = rows / size + 1 := by
        refine Nat.div_eq_of_lt_le ?_ ?_
        · rw [Nat.succ_mul, Nat.mul_comm (rows / size)]
          omega
        · rw [Nat.succ_mul, Nat.succ_mul, Nat.mul_comm (rows / size)]
          omega
      rw [if_neg exact, Word.sum?, if_pos (by omega), rounded]

/-! ## Cutting pages -/

/-- Where the rows can be counted, a page is cut out at its exact position. -/
theorem pageOf_eq (fits : rows.length ≤ Word.largest) (page size : Nat) :
    pageOf rows page size = (rows.drop ((page - 1) * size)).take size := by
  rw [pageOf, pageStart]
  by_cases inRange : (page - 1) * size ≤ Word.largest
  · rw [Nat.min_eq_left inRange]
  · have behind : rows.length ≤ (page - 1) * size := by omega
    rw [Nat.min_eq_right (by omega), List.drop_eq_nil_of_le fits, List.drop_eq_nil_of_le behind]

/-- Cutting out a page by words never fails and gives the page. -/
theorem pageInWords?_eq (fits : rows.length ≤ Word.largest) (page size : Nat) :
    pageInWords? rows page size = some (pageOf rows page size) := by
  have start : Word.saturated ((page - 1) * size) = pageStart page size := rfl
  rw [pageInWords?, start, pageOf]
  by_cases behind : rows.length ≤ pageStart page size
  · simp only [if_pos behind, List.drop_eq_nil_of_le behind, List.take_nil]
  · -- The end of the rows is a word, so a stop that is out of range stands for this end.
    have stop : min (Word.saturated (pageStart page size + size)) rows.length =
        min (pageStart page size + size) rows.length := by
      rw [Word.saturated]
      omega
    have ordered : pageStart page size ≤ min (pageStart page size + size) rows.length ∧
        min (pageStart page size + size) rows.length ≤ rows.length := by omega
    have piece : (rows.drop (pageStart page size)).take
          (min (pageStart page size + size) rows.length - pageStart page size) =
        (rows.drop (pageStart page size)).take size := by
      rw [List.take_eq_take_iff, List.length_drop]
      omega
    simp only [if_neg behind, rowsBetween?, stop, if_pos ordered, List.drop_take, piece]

/-- A page has rows if fewer rows are in front of it than there are. -/
theorem pageOf_ne_nil (fits : rows.length ≤ Word.largest) (some : 0 < size)
    (inside : (page - 1) * size < rows.length) : pageOf rows page size ≠ [] := by
  rw [pageOf_eq fits, ← List.length_pos_iff, List.length_take, List.length_drop]
  omega

/-- A page is full if another page has rows behind it. -/
theorem length_pageOf (fits : rows.length ≤ Word.largest) (first : 1 ≤ page)
    (more : page * size < rows.length) : (pageOf rows page size).length = size := by
  obtain ⟨before, rfl⟩ := Nat.exists_eq_add_of_le' first
  rw [Nat.succ_mul] at more
  rw [pageOf_eq fits, List.length_take, List.length_drop, Nat.add_sub_cancel]
  omega

/-- The first pages are the rows up to where the next page starts. -/
theorem flatMap_pageOf (fits : rows.length ≤ Word.largest) (size count : Nat) :
    ((List.range' 1 count).flatMap fun page => pageOf rows page size) =
      rows.take (count * size) := by
  induction count with
  | zero => simp
  | succ count inductionHypothesis =>
    have next : pageOf rows (1 + count) size = (rows.drop (count * size)).take size := by
      rw [pageOf_eq fits, Nat.add_sub_cancel_left]
    rw [List.range'_1_concat, List.flatMap_append, inductionHypothesis, List.flatMap_singleton,
      next, Nat.succ_mul, List.take_add]

/-- Pages divide the rows. Where a page can take rows, the pages from the first to the last
are the rows in order, none of them is empty, and all but the last are full. Every later
page is empty, page zero is the first page, and where a page can take no rows there are no
pages and every page is empty. What is computed in words is computed without leaving their
range, and every cut is inside of the rows. -/
theorem pages_divide_rows (rows : List α) (size : Nat) (fits : rows.length ≤ Word.largest) :
    let count := pageCount rows.length size
    (0 < size →
      ((List.range' 1 count).flatMap fun page => pageOf rows page size) = rows ∧
        (∀ page, 1 ≤ page → page ≤ count → pageOf rows page size ≠ []) ∧
        ∀ page, 1 ≤ page → page < count → (pageOf rows page size).length = size) ∧
      (∀ page, count < page → pageOf rows page size = []) ∧
      pageOf rows 0 size = pageOf rows 1 size ∧
      (size = 0 → count = 0 ∧ ∀ page, pageOf rows page size = []) ∧
      pageCountInWords? rows.length size = some count ∧
      ∀ page, pageInWords? rows page size = some (pageOf rows page size) := by
  intro count
  have noRoom : size = 0 → count = 0 ∧ ∀ page, pageOf rows page size = [] := by
    rintro rfl
    exact ⟨rfl, fun page => List.take_zero⟩
  refine ⟨?pages, ?later, ?zero, noRoom, pageCountInWords?_eq fits size,
    fun page => pageInWords?_eq fits page size⟩
  case pages =>
    intro some
    refine ⟨?_, ?_, ?_⟩
    · have all : rows.length ≤ count * size :=
        Nat.not_lt.mp fun more => Nat.lt_irrefl count ((lt_pageCount_iff some _).mpr more)
      rw [flatMap_pageOf fits, List.take_of_length_le all]
    · intro page first last
      have before : page - 1 < count := by omega
      exact pageOf_ne_nil fits some ((lt_pageCount_iff some _).mp before)
    · intro page first before
      exact length_pageOf fits first ((lt_pageCount_iff some _).mp before)
  case later =>
    intro page behind
    rcases Nat.eq_zero_or_pos size with none | some
    · exact (noRoom none).2 page
    · have last : ¬ page - 1 < count := by omega
      have outside : rows.length ≤ (page - 1) * size :=
        Nat.not_lt.mp fun inside => last ((lt_pageCount_iff some _).mpr inside)
      rw [pageOf_eq fits, List.drop_eq_nil_of_le outside, List.take_nil]
  case zero => rfl

/-- Three rows take two pages of two, and the page with the largest number, which starts
where no word reaches, is empty and cut out without a fault. -/
theorem pages_divide_three_rows :
    let rows := ['a', 'b', 'c']
    rows.length ≤ Word.largest ∧ pageCount rows.length 2 = 2 ∧
      pageOf rows 1 2 ++ pageOf rows 2 2 = rows ∧ (pageOf rows 1 2).length = 2 ∧
      pageOf rows 2 2 ≠ [] ∧ pageOf rows Word.largest 2 = [] ∧
      pageInWords? rows Word.largest 2 = some [] := by
  intro rows
  have fits : rows.length ≤ Word.largest := by decide
  have count : pageCount rows.length 2 = 2 := by decide
  obtain ⟨pages, later, _, _, _, cut⟩ := pages_divide_rows rows 2 fits
  obtain ⟨whole, some, full⟩ := pages (by decide)
  have last : pageOf rows Word.largest 2 = [] := later Word.largest (by decide)
  refine ⟨fits, count, ?_, full 1 (by decide) (by decide), some 2 (by decide) (by decide), last, ?_⟩
  · simpa [count, List.range'] using whole
  · rw [cut, last]

end MetricQuery
