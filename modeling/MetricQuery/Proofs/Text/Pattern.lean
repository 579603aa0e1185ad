import MetricQuery.Condition
import MetricQuery.Proofs.Text.Lowercase

/-!
# What a pattern matches

A pattern with a percent sign matches the texts that are its pieces in their order,
with any text in the place of each sign. The pieces are looked for from the left and
never looked for again, which finds a match wherever there is one: the first place
of a piece leaves the longest rest of the text, and pieces that can be placed in a
text can be placed in any longer one that ends with it. So a match is carried over
from piece to piece, up to the last one, which has to stand at the end of a text
that is only longer.

A pattern without a percent sign matches the texts in which it occurs. Lower case
neither brings a percent sign into a pattern nor takes one away.
-/

namespace MetricQuery

namespace Text

/-! ## Pieces of a pattern -/

/-- A pattern is cut into its pieces as a list is split. -/
theorem piecesAt_eq_splitOn (mark : Char) (text : List Char) :
    (piecesAt mark text).1 :: (piecesAt mark text).2 = text.splitOn mark := by
  induction text with
  | nil => simp [piecesAt]
  | cons c later inductionHypothesis =>
    simp only [List.splitOn] at inductionHypothesis ⊢
    rw [List.splitOnP_cons_eq_if_modifyHead, ← inductionHypothesis]
    by_cases same : c = mark
    · simp [piecesAt, same]
    · simp [piecesAt, same]

/-- A text without the mark is one piece. -/
theorem piecesAt_of_not_mem {mark : Char} {text : List Char} (absent : mark ∉ text) :
    piecesAt mark text = (text, []) := by
  induction text with
  | nil => rfl
  | cons c later inductionHypothesis =>
    obtain ⟨apart, behind⟩ : mark ≠ c ∧ mark ∉ later := by simpa using absent
    simp [piecesAt, inductionHypothesis behind, Ne.symm apart]

/-- A text with the mark has more than one piece. -/
theorem piecesAt_snd_ne_nil {mark : Char} {text : List Char} (present : mark ∈ text) :
    (piecesAt mark text).2 ≠ [] := by
  induction text with
  | nil => simp at present
  | cons c later inductionHypothesis =>
    by_cases same : c = mark
    · simp [piecesAt, same]
    · have behind : mark ∈ later := (List.mem_cons.mp present).resolve_left (Ne.symm same)
      simpa [piecesAt, same] using inductionHypothesis behind

/-! ## One piece -/

/-- What follows the first place of a piece stands behind the piece. -/
theorem afterFirst_sound {piece text rest : List Char} (found : afterFirst piece text = some rest) :
    ∃ gap, text = gap ++ (piece ++ rest) := by
  have atStart {whole left : List Char} (here : afterStart piece whole = some left) :
      ∃ gap, whole = gap ++ (piece ++ left) := by
    have same : whole = piece ++ left := afterStart_eq_some_iff.mp here
    exact ⟨[], same⟩
  induction text with
  | nil => exact atStart found
  | cons c later inductionHypothesis =>
    rw [afterFirst] at found
    split at found
    · rename_i most here
      obtain rfl := Option.some.inj found
      exact atStart here
    · obtain ⟨gap, behind⟩ := inductionHypothesis found
      exact ⟨c :: gap, by rw [behind, List.cons_append]⟩

/-- The first place of a piece leaves at least what any of its places leaves. -/
theorem afterFirst_most (gap piece rest : List Char) :
    ∃ most, afterFirst piece (gap ++ (piece ++ rest)) = some most ∧ rest <:+ most := by
  have here : afterStart piece (piece ++ rest) = some rest := afterStart_eq_some_iff.mpr rfl
  induction gap with
  | nil =>
    refine ⟨rest, ?_, List.suffix_rfl⟩
    rw [List.nil_append]
    cases text : piece ++ rest with
    | nil => rw [afterFirst, ← text, here]
    | cons c later => rw [afterFirst, ← text, here]
  | cons c gap inductionHypothesis =>
    rw [List.cons_append, afterFirst]
    split
    · -- The piece stands at an earlier place, so it leaves the whole of the known rest and more.
      rename_i most early
      have placed : c :: (gap ++ (piece ++ rest)) = piece ++ most := afterStart_eq_some_iff.mp early
      have suffix : rest <:+ piece ++ most :=
        ⟨c :: gap ++ piece, by simp [← placed]⟩
      have shorter : rest.length ≤ most.length := by
        have lengths := congrArg List.length placed
        simp only [List.length_cons, List.length_append] at lengths
        omega
      exact ⟨most, rfl, List.suffix_of_suffix_length_le suffix (List.suffix_append piece most) shorter⟩
    · exact inductionHypothesis

/-- A piece is found exactly where it occurs. -/
theorem isSome_afterFirst_iff (piece text : List Char) :
    (afterFirst piece text).isSome = true ↔ piece <:+: text := by
  constructor
  · intro found
    obtain ⟨rest, place⟩ := Option.isSome_iff_exists.mp found
    obtain ⟨gap, rfl⟩ := afterFirst_sound place
    exact ⟨gap, rest, List.append_assoc ..⟩
  · rintro ⟨gap, rest, rfl⟩
    obtain ⟨most, found, _⟩ := afterFirst_most gap piece rest
    rw [List.append_assoc, found]
    rfl

/-- A text ends with another one exactly if that is a suffix of it. -/
theorem endsWith_iff (ending text : List Char) : endsWith ending text = true ↔ ending <:+ text := by
  constructor
  · intro found
    obtain ⟨rest, place⟩ := Option.isSome_iff_exists.mp found
    have reversed := afterStart_eq_some_iff.mp place
    exact List.reverse_prefix.mp ⟨rest, reversed.symm⟩
  · rintro ⟨front, rfl⟩
    have place : afterStart ending.reverse (front ++ ending).reverse = some front.reverse :=
      afterStart_eq_some_iff.mpr List.reverse_append
    rw [endsWith, place]
    rfl

/-! ## Several pieces -/

/-- Whether pieces can be placed in a text in their order, each behind a gap, so that
some rest is left. -/
def Placed : List (List Char) → List Char → List Char → Prop
  | [], text, rest => text = rest
  | piece :: pieces, text, rest =>
      ∃ gap behind, text = gap ++ (piece ++ behind) ∧ Placed pieces behind rest

/-- Pieces that are found one after the other are placed. -/
theorem placed_of_afterPieces {pieces : List (List Char)} {text rest : List Char}
    (found : afterPieces pieces text = some rest) : Placed pieces text rest := by
  induction pieces generalizing text with
  | nil => exact Option.some.inj found
  | cons piece pieces inductionHypothesis =>
    obtain ⟨behind, here, later⟩ := Option.bind_eq_some_iff.mp found
    obtain ⟨gap, text⟩ := afterFirst_sound here
    exact ⟨gap, behind, text, inductionHypothesis later⟩

/-- Pieces that can be placed in a text are found in every longer text that ends with
it, and what is left there ends with what the placement leaves. -/
theorem Placed.found {pieces : List (List Char)} {inner rest : List Char}
    (placed : Placed pieces inner rest) {text : List Char} (inside : inner <:+ text) :
    ∃ most, afterPieces pieces text = some most ∧ rest <:+ most := by
  induction pieces generalizing inner text with
  | nil =>
    obtain rfl : inner = rest := placed
    exact ⟨text, rfl, inside⟩
  | cons piece pieces inductionHypothesis =>
    obtain ⟨gap, behind, rfl, later⟩ := placed
    obtain ⟨front, rfl⟩ := inside
    obtain ⟨longer, here, left⟩ := afterFirst_most (front ++ gap) piece behind
    obtain ⟨most, found, ends⟩ := inductionHypothesis later left
    rw [List.append_assoc] at here
    exact ⟨most, by rw [afterPieces, here, Option.bind_some, found], ends⟩

/-- A last piece is placed at the end if what the others leave ends with it. -/
theorem placed_concat_iff {pieces : List (List Char)} {last text : List Char} :
    Placed (pieces ++ [last]) text [] ↔ ∃ rest, Placed pieces text rest ∧ last <:+ rest := by
  induction pieces generalizing text with
  | nil => simp [Placed, List.IsSuffix, eq_comm]
  | cons piece pieces inductionHypothesis =>
    simp only [List.cons_append, Placed, inductionHypothesis]
    constructor
    · rintro ⟨gap, behind, text, rest, others, ends⟩
      exact ⟨rest, ⟨gap, behind, text, others⟩, ends⟩
    · rintro ⟨rest, ⟨gap, behind, text, others⟩, ends⟩
      exact ⟨gap, behind, text, rest, others, ends⟩

/-- Pieces fill a text if it is made of them, each behind some gap. -/
theorem placed_nil_iff {pieces : List (List Char)} {text : List Char} :
    Placed pieces text [] ↔ ∃ gaps : List (List Char), gaps.length = pieces.length ∧
      text = (List.zipWith (· ++ ·) gaps pieces).flatten := by
  induction pieces generalizing text with
  | nil => simp [Placed]
  | cons piece pieces inductionHypothesis =>
    simp only [Placed, inductionHypothesis]
    constructor
    · rintro ⟨gap, behind, rfl, gaps, same, rfl⟩
      exact ⟨gap :: gaps, by simp [same], by simp⟩
    · rintro ⟨gaps, same, rfl⟩
      obtain ⟨gap, others, rfl⟩ := List.exists_cons_of_length_eq_add_one same
      exact ⟨gap, _, by simp, others, Nat.succ.inj same, rfl⟩

/-! ## Whole patterns -/

/-- A pattern with a percent sign matches what starts with its first piece and is
filled by the others behind it. -/
theorem matchesPattern_iff_placed {first : List Char} {more : List (List Char)}
    {pattern text : List Char} (pieces : piecesAt '%' pattern = (first, more)) (several : more ≠ []) :
    matchesPattern pattern text = true ↔ ∃ behind, text = first ++ behind ∧ Placed more behind [] := by
  have whole : matchesPattern pattern text =
      ((afterStart first text).bind (afterPieces more.dropLast)).any (endsWith (more.getLastD [])) := by
    obtain ⟨next, others, rfl⟩ := List.exists_cons_of_ne_nil several
    simp only [matchesPattern, pieces]
    cases afterStart first text with
    | none => rfl
    | some rest => cases found : afterPieces (next :: others).dropLast rest <;> simp [found]
  obtain ⟨middle, last, rfl⟩ : ∃ middle last, more = middle ++ [last] :=
    ⟨_, _, (List.dropLast_concat_getLast several).symm⟩
  simp only [placed_concat_iff]
  rw [whole, Option.any_eq_true]
  constructor
  · rintro ⟨remaining, found, ends⟩
    obtain ⟨behind, start, later⟩ := Option.bind_eq_some_iff.mp found
    refine ⟨behind, afterStart_eq_some_iff.mp start, remaining, ?_, ?_⟩
    · exact placed_of_afterPieces (by simpa using later)
    · simpa using (endsWith_iff _ _).mp ends
  · rintro ⟨behind, text, rest, placed, ends⟩
    obtain ⟨most, found, left⟩ := placed.found List.suffix_rfl
    have start : afterStart first _ = some behind := afterStart_eq_some_iff.mpr text
    refine ⟨most, by simp [start, found], ?_⟩
    rw [endsWith_iff]
    simpa using ends.trans left

/-- A pattern without a percent sign matches where it occurs. -/
theorem matchesPattern_iff_infix {pattern : List Char} (absent : '%' ∉ pattern)
    (text : List Char) : matchesPattern pattern text = true ↔ pattern <:+: text := by
  rw [matchesPattern, piecesAt_of_not_mem absent]
  exact isSome_afterFirst_iff pattern text

/-! ## Lower case -/

/-- The letters of every run stand behind the percent sign. -/
theorem percent_before_letters :
    (caseRuns.all fun run => Nat.blt '%'.toNat (run.letter run.first)) = true := by
  decide +kernel

/-- A code point stands for its own character, or for none and then for the null character. -/
theorem toNat_ofNat_cases (code : Nat) :
    (Char.ofNat code).toNat = code ∨ Char.ofNat code = '\x00' := by
  by_cases valid : code.isValidChar
  · left
    rw [Char.ofNat, dif_pos valid]
    rfl
  · right
    rw [Char.ofNat, dif_neg valid]
    rfl

/-- Only a percent sign has a percent sign for its lower case. -/
theorem percent_mem_lowerChar_iff (c : Char) : '%' ∈ lowerChar c ↔ c = '%' := by
  by_cases ascii : c.toNat < 128
  · have all : ∀ code ∈ List.range 128,
        '%' ∈ lowerChar (Char.ofNat code) ↔ Char.ofNat code = '%' := by decide +kernel
    have here := all c.toNat (List.mem_range.mpr ascii)
    rwa [Char.ofNat_toNat] at here
  · have apart : c ≠ '%' := by
      rintro rfl
      exact ascii (by decide)
    rw [lowerChar, if_neg ascii]
    by_cases dotted : c.toNat = 0x130
    · rw [if_pos dotted]
      exact iff_of_false (by decide) apart
    · rw [if_neg dotted, List.mem_singleton]
      refine iff_of_false ?_ apart
      rcases smallLetter_cases caseRuns c.toNat with same | ⟨run, listed, capital, small⟩
      · rw [same, Char.ofNat_toNat]
        exact Ne.symm apart
      · have first : '%'.toNat < run.letter run.first := by
          simpa using List.all_eq_true.mp percent_before_letters run listed
        have behind : '%'.toNat < run.letter c.toNat := by
          have started := capital.fromFirst
          unfold CaseRun.letter at first ⊢
          omega
        rw [small]
        intro same
        rcases toNat_ofNat_cases (run.letter c.toNat) with place | null
        · rw [← same] at place
          omega
        · exact absurd (same.trans null) (by decide)

/-- A text has a percent sign exactly if its lower case has one. -/
theorem percent_mem_lowerFrom_iff (afterCased : Bool) (text : List Char) :
    '%' ∈ lowerFrom afterCased text ↔ '%' ∈ text := by
  induction text generalizing afterCased with
  | nil => rfl
  | cons c later inductionHypothesis =>
    rw [lowerFrom, List.mem_append, inductionHypothesis, List.mem_cons, eq_comm (a := '%')]
    refine or_congr_left ?_
    by_cases sigma : c = 'Σ'
    · rw [if_pos sigma, sigma]
      split <;> decide
    · rw [if_neg sigma]
      exact percent_mem_lowerChar_iff c

end Text

/-- A text matches a pattern, without regard to letter case, exactly in one of two ways.
A pattern with percent signs is cut at them, and the text in lower case is the first
piece and then the others in their order, each behind some gap. A pattern without
percent signs occurs in the text, both in lower case. -/
theorem likeText_iff (text pattern : List Char) :
    likeText text pattern = true ↔
      if '%' ∈ pattern then
        ∃ first later gaps, (Text.lower pattern).splitOn '%' = first :: later ∧
          gaps.length = later.length ∧
            Text.lower text = first ++ (List.zipWith (· ++ ·) gaps later).flatten
      else Text.lower pattern <:+: Text.lower text := by
  have same : '%' ∈ Text.lower pattern ↔ '%' ∈ pattern :=
    Text.percent_mem_lowerFrom_iff false pattern
  rw [likeText]
  split
  case isTrue present =>
    cases pieces : Text.piecesAt '%' (Text.lower pattern) with
    | mk first later =>
      have several : later ≠ [] := by
        have more := Text.piecesAt_snd_ne_nil (same.mpr present)
        rwa [pieces] at more
      have split : (Text.lower pattern).splitOn '%' = first :: later := by
        rw [← Text.piecesAt_eq_splitOn, pieces]
      rw [Text.matchesPattern_iff_placed pieces several, split]
      simp only [Text.placed_nil_iff]
      constructor
      · rintro ⟨_, text, gaps, lengths, rfl⟩
        exact ⟨first, later, gaps, rfl, lengths, text⟩
      · rintro ⟨_, _, gaps, cut, lengths, text⟩
        obtain ⟨rfl, rfl⟩ := List.cons.inj cut
        exact ⟨_, text, gaps, lengths, rfl⟩
  case isFalse absent => exact Text.matchesPattern_iff_infix (fun here => absent (same.mp here)) _

end MetricQuery
