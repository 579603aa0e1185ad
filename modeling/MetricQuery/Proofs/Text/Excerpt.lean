import MetricQuery.Proofs.Text.Pattern

/-!
# Patterns cut out of a text

A text should match whatever is cut out of it: the piece alone, the piece between two
percent signs, and, where it was cut off at an end of the text, the piece with a
percent sign at its other end. Text and pattern are put into lower case apart, so this
asks for the lower case of the piece to stand in the lower case of the text.

One letter depends on its neighbours. A capital sigma takes its final form where it ends
a word, and cutting makes words end, or takes the letters away that come before it. If
each sigma of the piece ends a word in the text exactly where it does in the piece alone,
then the lower case of the piece stands in that of the text, and the piece is found. At
the ends of a text, where the place of the piece is fixed, this is needed as well.
-/

namespace MetricQuery

namespace Text

/-! ## The lower case of a part -/

/-- Whether a sigma between two texts ends a word: a cased character comes before it and
none after it, where characters that are skipped do not count. -/
def endsWord (before after : List Char) : Bool := casedAhead before.reverse && !casedAhead after

/-- Whether the last character of a text that is not skipped is a cased one; for a text
without such a character it is as before the text. -/
def casedBehind (afterCased : Bool) (text : List Char) : Bool :=
  text.foldl (fun state c => if caseIgnorable.contains c then state else cased.contains c) afterCased

/-- Seen from its end, the first character of a text that counts is its last one. -/
theorem casedAhead_reverse (text : List Char) : casedAhead text.reverse = casedBehind false text := by
  have ahead (text : List Char) : casedAhead text =
      text.foldr (fun c state => if caseIgnorable.contains c then state else cased.contains c)
        false := by
    induction text with
    | nil => rfl
    | cons c later inductionHypothesis => rw [casedAhead, inductionHypothesis, List.foldr_cons]
  rw [ahead, List.foldr_reverse, casedBehind]

/-- The lower case of a part of a text, where another text follows the part. -/
def lowerBefore (after : List Char) : Bool → List Char → List Char
  | _, [] => []
  | afterCased, c :: later =>
      (if c = 'Σ' then [if afterCased && !casedAhead (later ++ after) then 'ς' else 'σ']
        else lowerChar c) ++
        lowerBefore after (casedBehind afterCased [c]) later

/-- The lower case of a text is that of a part and that of what follows it. -/
theorem lowerFrom_append (afterCased : Bool) (text after : List Char) :
    lowerFrom afterCased (text ++ after) =
      lowerBefore after afterCased text ++ lowerFrom (casedBehind afterCased text) after := by
  induction text generalizing afterCased with
  | nil => rfl
  | cons c later inductionHypothesis =>
    rw [List.cons_append, lowerFrom, inductionHypothesis, lowerBefore, List.append_assoc]
    rfl

/-- With nothing behind it, a part is a whole text. -/
theorem lowerBefore_nil (afterCased : Bool) (text : List Char) :
    lowerBefore [] afterCased text = lowerFrom afterCased text := by
  have whole := lowerFrom_append afterCased text []
  rw [List.append_nil, lowerFrom, List.append_nil] at whole
  exact whole.symm

/-- The length of the lower case does not depend on what is around a part. -/
theorem length_lowerBefore (after other : List Char) (afterCased otherCased : Bool)
    (text : List Char) : (lowerBefore after afterCased text).length =
      (lowerBefore other otherCased text).length := by
  induction text generalizing afterCased otherCased with
  | nil => rfl
  | cons c later inductionHypothesis =>
    simp only [lowerBefore, List.length_append]
    congr 1
    · by_cases sigma : c = 'Σ' <;> simp [sigma]
    · exact inductionHypothesis _ _

/-- The places of a mark in a text are its first character and those behind it. -/
theorem forall_place_cons {mark c : Char} {later : List Char}
    {Property : List Char → List Char → Prop} :
    (∀ front back, c :: later = front ++ mark :: back → Property front back) ↔
      (c = mark → Property [] later) ∧
        ∀ front back, later = front ++ mark :: back → Property (c :: front) back := by
  constructor
  · intro all
    refine ⟨?_, ?_⟩
    · rintro rfl
      exact all [] later rfl
    · rintro front back rfl
      exact all (c :: front) back rfl
  · rintro ⟨first, behind⟩ front back same
    cases front with
    | nil =>
      obtain ⟨rfl, rfl⟩ := List.cons.inj same
      exact first rfl
    | cons d front =>
      obtain ⟨rfl, rfl⟩ := List.cons.inj same
      exact behind front back rfl

/-- A part has the same lower case in two places exactly if each of its sigmas ends a
word in both or in none. -/
theorem lowerBefore_eq_iff {after other : List Char} {afterCased otherCased : Bool}
    {text : List Char} :
    lowerBefore after afterCased text = lowerBefore other otherCased text ↔
      ∀ front back, text = front ++ 'Σ' :: back →
        (casedBehind afterCased front && !casedAhead (back ++ after)) =
          (casedBehind otherCased front && !casedAhead (back ++ other)) := by
  induction text generalizing afterCased otherCased with
  | nil => simp [lowerBefore]
  | cons c later inductionHypothesis =>
    rw [forall_place_cons, lowerBefore, lowerBefore]
    by_cases sigma : c = 'Σ'
    · have form (final otherFinal : Bool) :
          (if final then 'ς' else 'σ') = (if otherFinal then 'ς' else 'σ') ↔ final = otherFinal := by
        cases final <;> cases otherFinal <;> decide
      simp only [if_pos sigma, List.singleton_append, List.cons.injEq, form, inductionHypothesis]
      exact and_congr_left fun _ => ⟨fun here _ => here, fun here => here sigma⟩
    · rw [if_neg sigma, if_neg sigma, List.append_cancel_left_eq, inductionHypothesis]
      exact ⟨fun behind => ⟨fun here => absurd here sigma, behind⟩, fun both => both.2⟩

/-- Whether each sigma of a part of a text ends a word in the text exactly if it does
in the part alone. -/
def KeepsSigmas (before text after : List Char) : Prop :=
  ∀ front back, text = front ++ 'Σ' :: back →
    endsWord (before ++ front) (back ++ after) = endsWord front back

/-- The places of a sigma are found one by one. -/
theorem keepsSigmas_iff_places {before text after : List Char} :
    KeepsSigmas before text after ↔ ∀ place < text.length, text[place]? = some 'Σ' →
      endsWord (before ++ text.take place) (text.drop (place + 1) ++ after) =
        endsWord (text.take place) (text.drop (place + 1)) := by
  constructor
  · intro keeps place inside sigma
    refine keeps _ _ ?_
    have here : text[place] = 'Σ' := by simpa [inside] using sigma
    rw [← here, List.getElem_cons_drop, List.take_append_drop]
  · rintro places front back rfl
    simpa using places front.length (by simp) (by simp)

instance (before text after : List Char) : Decidable (KeepsSigmas before text after) :=
  decidable_of_iff _ keepsSigmas_iff_places.symm

/-- A part without a sigma may be cut out anywhere. -/
theorem keepsSigmas_of_not_mem {text : List Char} (absent : 'Σ' ∉ text)
    (before after : List Char) : KeepsSigmas before text after := by
  rintro front back rfl
  exact absurd (List.mem_append_right front List.mem_cons_self) absent

/-- A part has in a text the lower case that it has alone exactly if its sigmas keep their form. -/
theorem lowerBefore_eq_lower_iff {before text after : List Char} :
    lowerBefore after (casedBehind false before) text = lower text ↔
      KeepsSigmas before text after := by
  rw [lower, ← lowerBefore_nil, lowerBefore_eq_iff]
  simp only [KeepsSigmas, endsWord, casedAhead_reverse, casedBehind, List.foldl_append,
    List.append_nil]

/-- The lower case of a part whose sigmas keep their form stands in that of the text. -/
theorem KeepsSigmas.inner {before text after : List Char} (keeps : KeepsSigmas before text after) :
    lower text <:+: lower (before ++ text ++ after) := by
  have whole : lower (before ++ (text ++ after)) = lowerBefore (text ++ after) false before ++
      (lowerBefore after (casedBehind false before) text ++
        lowerFrom (casedBehind (casedBehind false before) text) after) := by
    rw [lower, lowerFrom_append, lowerFrom_append]
  rw [List.append_assoc, whole, lowerBefore_eq_lower_iff.mpr keeps, ← List.append_assoc]
  exact List.infix_append _ _ _

/-- At the start of a text this is needed as well. -/
theorem lower_prefix_iff {text after : List Char} :
    lower text <+: lower (text ++ after) ↔ KeepsSigmas [] text after := by
  have whole : lower (text ++ after) =
      lowerBefore after (casedBehind false []) text ++ lowerFrom (casedBehind false text) after :=
    lowerFrom_append false text after
  have start : (lowerBefore after (casedBehind false []) text).length = (lower text).length := by
    rw [lower, ← lowerBefore_nil, length_lowerBefore]
  rw [← lowerBefore_eq_lower_iff, whole, List.prefix_iff_eq_take, ← start, List.take_left, eq_comm]

/-- So it is at the end of a text. -/
theorem lower_suffix_iff {before text : List Char} :
    lower text <:+ lower (before ++ text) ↔ KeepsSigmas before text [] := by
  have whole : lower (before ++ text) =
      lowerBefore text false before ++ lowerBefore [] (casedBehind false before) text := by
    rw [lower, lowerFrom_append, lowerBefore_nil]
  have ending : (lowerBefore [] (casedBehind false before) text).length = (lower text).length := by
    rw [lower, ← lowerBefore_nil, length_lowerBefore]
  rw [← lowerBefore_eq_lower_iff, whole, List.suffix_iff_eq_drop, List.length_append, ending,
    Nat.add_sub_cancel, List.drop_left, eq_comm]

/-! ## Patterns with percent signs around a piece -/

/-- A percent sign is neither skipped nor cased, so it ends every word. -/
theorem casedAhead_percent (text later : List Char) :
    casedAhead (text ++ '%' :: later) = casedAhead text := by
  have plain : caseIgnorable.contains '%' = false ∧ cased.contains '%' = false := by
    decide +kernel
  induction text with
  | nil => simp [casedAhead, plain]
  | cons c text inductionHypothesis => rw [List.cons_append, casedAhead, inductionHypothesis, casedAhead]

/-- The lower case of a percent sign and a text is the sign and the lower case of the text. -/
theorem lower_percent_cons (text : List Char) : lower ('%' :: text) = '%' :: lower text := by
  have plain : caseIgnorable.contains '%' = false ∧ cased.contains '%' = false := by
    decide +kernel
  have alone : lowerChar '%' = ['%'] := by decide
  rw [lower, lowerFrom, if_neg (by decide), alone, plain.1, plain.2]
  rfl

/-- The lower case of a text and a percent sign is the lower case of the text and the sign. -/
theorem lower_append_percent (text : List Char) : lower (text ++ ['%']) = lower text ++ ['%'] := by
  have keeps : KeepsSigmas [] text ['%'] := by
    intro front back _
    rw [endsWord, casedAhead_percent, List.nil_append, endsWord]
  have sign (afterCased : Bool) : lowerFrom afterCased ['%'] = ['%'] := by
    cases afterCased <;> decide +kernel
  rw [lower, lowerFrom_append, sign]
  exact congrArg (· ++ ['%']) (lowerBefore_eq_lower_iff.mpr keeps)

/-- A text is cut at its first mark. -/
theorem piecesAt_append {mark : Char} {front : List Char} (absent : mark ∉ front)
    (back : List Char) : piecesAt mark (front ++ mark :: back) =
      (front, (piecesAt mark back).1 :: (piecesAt mark back).2) := by
  induction front with
  | nil => simp [piecesAt]
  | cons c front inductionHypothesis =>
    obtain ⟨apart, behind⟩ : mark ≠ c ∧ mark ∉ front := by simpa using absent
    simp [piecesAt, inductionHypothesis behind, Ne.symm apart]

end Text

section Excerpts

variable {piece : List Char}

/-- A piece without a percent sign has none in lower case. -/
theorem percent_not_mem_lower (plain : '%' ∉ piece) : '%' ∉ Text.lower piece :=
  fun here => plain ((Text.percent_mem_lowerFrom_iff false piece).mp here)

/-- A piece alone matches the texts in which it occurs. -/
theorem likeText_piece (plain : '%' ∉ piece) (text : List Char) :
    likeText text piece = true ↔ Text.lower piece <:+: Text.lower text :=
  Text.matchesPattern_iff_infix (percent_not_mem_lower plain) _

/-- So does a piece between two percent signs. -/
theorem likeText_between (plain : '%' ∉ piece) (text : List Char) :
    likeText text (['%'] ++ piece ++ ['%']) = true ↔ Text.lower piece <:+: Text.lower text := by
  have pieces : Text.piecesAt '%' (Text.lower (['%'] ++ piece ++ ['%'])) =
      ([], [Text.lower piece, []]) := by
    rw [Text.lower_append_percent, List.singleton_append, Text.lower_percent_cons]
    have behind := Text.piecesAt_append (percent_not_mem_lower plain) []
    simp [Text.piecesAt, behind]
  rw [likeText, Text.matchesPattern_iff_placed pieces (List.cons_ne_nil _ _)]
  constructor
  · rintro ⟨_, whole, gap, behind, rfl, _⟩
    exact ⟨gap, behind, by simpa using whole.symm⟩
  · rintro ⟨gap, behind, whole⟩
    refine ⟨_, (List.nil_append _).symm, gap, behind, ?_, behind, [], by simp, rfl⟩
    rw [← whole, List.append_assoc]

/-- A piece before a percent sign matches the texts that start with it. -/
theorem likeText_start (plain : '%' ∉ piece) (text : List Char) :
    likeText text (piece ++ ['%']) = true ↔ Text.lower piece <+: Text.lower text := by
  have pieces : Text.piecesAt '%' (Text.lower (piece ++ ['%'])) = (Text.lower piece, [[]]) := by
    rw [Text.lower_append_percent, Text.piecesAt_append (percent_not_mem_lower plain)]
    rfl
  rw [likeText, Text.matchesPattern_iff_placed pieces (List.cons_ne_nil _ _)]
  constructor
  · rintro ⟨behind, whole, _⟩
    exact ⟨behind, whole.symm⟩
  · rintro ⟨behind, whole⟩
    exact ⟨behind, whole.symm, behind, [], by simp, rfl⟩

/-- A piece behind a percent sign matches the texts that end with it. -/
theorem likeText_end (plain : '%' ∉ piece) (text : List Char) :
    likeText text (['%'] ++ piece) = true ↔ Text.lower piece <:+ Text.lower text := by
  have pieces : Text.piecesAt '%' (Text.lower (['%'] ++ piece)) = ([], [Text.lower piece]) := by
    rw [List.singleton_append, Text.lower_percent_cons]
    have alone := Text.piecesAt_of_not_mem (percent_not_mem_lower plain)
    simp [Text.piecesAt, alone]
  rw [likeText, Text.matchesPattern_iff_placed pieces (List.cons_ne_nil _ _)]
  constructor
  · rintro ⟨_, whole, gap, _, rfl, rfl⟩
    exact ⟨gap, by simpa using whole.symm⟩
  · rintro ⟨gap, whole⟩
    refine ⟨_, (List.nil_append _).symm, gap, [], ?_, rfl⟩
    rw [← whole, List.append_nil]

end Excerpts

/-- A piece that is cut out of a text, without a percent sign in it, matches the text alone
and between percent signs if its sigmas keep their form, as they do in a piece without
sigmas. A piece from the start of a text, before a percent sign, and one from the end,
behind one, match the text exactly in this case. -/
theorem likeText_excerpt (before piece after : List Char) (plain : '%' ∉ piece) :
    (Text.KeepsSigmas before piece after →
      likeText (before ++ piece ++ after) piece = true ∧
        likeText (before ++ piece ++ after) (['%'] ++ piece ++ ['%']) = true) ∧
    (likeText (piece ++ after) (piece ++ ['%']) = true ↔ Text.KeepsSigmas [] piece after) ∧
    (likeText (before ++ piece) (['%'] ++ piece) = true ↔ Text.KeepsSigmas before piece []) ∧
    ('Σ' ∉ piece → Text.KeepsSigmas before piece after) := by
  refine ⟨?inside, ?start, ?ending, fun absent => Text.keepsSigmas_of_not_mem absent before after⟩
  case inside =>
    intro keeps
    rw [likeText_piece plain, likeText_between plain]
    exact ⟨keeps.inner, keeps.inner⟩
  case start => rw [likeText_start plain, Text.lower_prefix_iff]
  case ending => rw [likeText_end plain, Text.lower_suffix_iff]

/-- The sigmas of a word that is cut out as a whole keep their form, and the dotted
capital, whose lower case is two characters, is cut out like any letter. -/
theorem likeText_excerpt_word :
    '%' ∉ "ΟΔΥΣΣΕΥΣ İ".toList ∧
      likeText ("Ὁ ".toList ++ "ΟΔΥΣΣΕΥΣ İ".toList ++ "STANBUL".toList) "ΟΔΥΣΣΕΥΣ İ".toList = true ∧
        likeText ("ΟΔΥΣΣΕΥΣ İ".toList ++ "STANBUL".toList) ("ΟΔΥΣΣΕΥΣ İ".toList ++ ['%']) = true := by
  have plain : '%' ∉ "ΟΔΥΣΣΕΥΣ İ".toList := by decide +kernel
  obtain ⟨inside, start, _⟩ :=
    likeText_excerpt "Ὁ ".toList "ΟΔΥΣΣΕΥΣ İ".toList "STANBUL".toList plain
  exact ⟨plain, (inside (by decide +kernel)).1, start.mpr (by decide +kernel)⟩

/-- A sigma that the cut puts at the end of a word is not found in the text, neither where
the piece stands nor at the start of the text. -/
theorem likeText_excerpt_inside_word :
    '%' ∉ "ΑΣ".toList ∧ likeText ([] ++ "ΑΣ".toList ++ "Α".toList) "ΑΣ".toList = false ∧
      likeText ([] ++ "ΑΣ".toList ++ "Α".toList) (['%'] ++ "ΑΣ".toList ++ ['%']) = false ∧
        likeText ("ΑΣ".toList ++ "Α".toList) ("ΑΣ".toList ++ ['%']) = false := by
  decide +kernel

end MetricQuery
