import MetricQuery.Text.Lowercase

/-!
# Lower case is final

A text in lower case stays as it is when it is put into lower case again. No
letter that a capital becomes is a capital itself, neither in the runs of
capitals nor among the exceptions, so every character of a text in lower case
is its own lower case, wherever it stands.

That the letters of one run are no capitals of another is decided for the two
runs as a whole: either all letters stand before or behind all capitals, or both
take every second place and never the same one.
-/

namespace MetricQuery.Text

/-- Whether a code point is a capital of a run. -/
structure CaseRun.IsCapital (run : CaseRun) (code : Nat) : Prop where
  /-- The run has started. -/
  fromFirst : run.first ≤ code
  /-- The run has not ended. -/
  toLast : code ≤ run.last
  /-- The code point is on a step of the run. -/
  onStep : (code - run.first) % run.step = 0

/-- The small letter of a code point of a run. -/
def CaseRun.letter (run : CaseRun) (code : Nat) : Nat := (code + run.offset).toNat

/-- Whether the letters of a run are told apart from the capitals of another one. -/
def CaseRun.isApart (run other : CaseRun) : Bool :=
  Nat.blt (run.letter run.last) other.first || Nat.blt other.last (run.letter run.first) ||
    ((Nat.beq run.step 2 || Nat.beq run.first run.last) && Nat.beq other.step 2 &&
      Nat.blt 0 (run.letter run.first) &&
      !Nat.beq (run.letter run.first % 2) (other.first % 2))

/-- Then no letter of the first run is a capital of the other one. -/
theorem CaseRun.not_isCapital_of_isApart {run other : CaseRun} (apart : run.isApart other = true)
    {code : Nat} (capital : run.IsCapital code) : ¬ other.IsCapital (run.letter code) := by
  intro again
  obtain ⟨fromFirst, toLast, onStep⟩ := capital
  obtain ⟨fromOther, toOther, onOther⟩ := again
  simp only [isApart, letter, Bool.or_eq_true, Bool.and_eq_true, Nat.blt_eq, Nat.beq_eq,
    Bool.not_eq_true', ← Bool.not_eq_true] at apart
  unfold letter at fromOther toOther onOther
  rcases apart with (before | behind) | ⟨⟨⟨places, otherPlaces⟩, positive⟩, parity⟩
  · omega
  · omega
  · have even : (code - run.first) % 2 = 0 := by
      rcases places with step | alone
      · rwa [step] at onStep
      · omega
    rw [otherPlaces] at onOther
    omega

/-- A code point that has a small letter is a capital of some run. -/
theorem smallLetter_cases (runs : List CaseRun) (code : Nat) :
    smallLetter runs code = code ∨
      ∃ run ∈ runs, run.IsCapital code ∧ smallLetter runs code = run.letter code := by
  induction runs with
  | nil => exact .inl rfl
  | cons run later inductionHypothesis =>
    rw [smallLetter]
    split
    · exact .inl rfl
    rename_i started
    split
    · rename_i notEnded
      split
      · rename_i onStep
        exact .inr ⟨run, List.mem_cons_self, ⟨Nat.le_of_not_lt started, notEnded, onStep⟩, rfl⟩
      · exact .inl rfl
    · rcases inductionHypothesis with same | ⟨other, member, capital, small⟩
      · exact .inl same
      · exact .inr ⟨other, List.mem_cons_of_mem _ member, capital, small⟩

/-- The letters of every run are told apart from the capitals of every run. -/
theorem isApart_caseRuns :
    (caseRuns.all fun run => caseRuns.all fun other => run.isApart other) = true := by
  decide +kernel

/-- No letter of a run is the dotted capital. -/
theorem isApart_dotted :
    (caseRuns.all fun run => run.isApart ⟨0x130, 0x130, 1, 0⟩) = true := by
  decide +kernel

/-- Whether a character is its own lower case in every place. -/
structure IsSmall (c : Char) : Prop where
  /-- The character is not the sigma, whose lower case depends on its place. -/
  noSigma : c ≠ 'Σ'
  /-- The character alone is in lower case. -/
  alone : lowerChar c = [c]

/-- A character that is neither a capital nor the dotted one is small. -/
theorem isSmall_of_not_isCapital {c : Char}
    (noCapital : ∀ run ∈ caseRuns, ¬ run.IsCapital c.toNat) (noDot : c.toNat ≠ 0x130) :
    IsSmall c := by
  constructor
  · rintro rfl
    have member : (⟨931, 939, 1, 32⟩ : CaseRun) ∈ caseRuns :=
      List.mem_of_getElem? (rfl : caseRuns[70]? = _)
    exact noCapital _ member ⟨by decide, by decide, by decide⟩
  · rw [lowerChar]
    by_cases ascii : c.toNat < 128
    · rw [if_pos ascii]
      have member : (⟨65, 90, 1, 32⟩ : CaseRun) ∈ caseRuns := List.mem_cons_self
      have noLetter : ¬ ('A'.val ≤ c.val ∧ c.val ≤ 'Z'.val) := by
        rintro ⟨fromFirst, toLast⟩
        exact noCapital _ member ⟨fromFirst, toLast, Nat.mod_one _⟩
      exact congrArg (fun letter => [letter]) (dif_neg noLetter)
    · rw [if_neg ascii, if_neg noDot]
      rcases smallLetter_cases caseRuns c.toNat with same | ⟨run, member, capital, _⟩
      · rw [same, Char.ofNat_toNat]
      · exact absurd capital (noCapital run member)

/-- The letter of every capital is small. -/
theorem isSmall_letter {run : CaseRun} (listed : run ∈ caseRuns) {code : Nat}
    (capital : run.IsCapital code) : IsSmall (Char.ofNat (run.letter code)) := by
  by_cases valid : (run.letter code).isValidChar
  · have place : (Char.ofNat (run.letter code)).toNat = run.letter code := by
      rw [Char.ofNat, dif_pos valid]
      rfl
    refine isSmall_of_not_isCapital ?_ ?_
    · intro other member
      rw [place]
      have aparts := List.all_eq_true.mp isApart_caseRuns run listed
      have apart := List.all_eq_true.mp aparts other member
      exact CaseRun.not_isCapital_of_isApart apart capital
    · intro dotted
      rw [place] at dotted
      have apart := List.all_eq_true.mp isApart_dotted run listed
      refine CaseRun.not_isCapital_of_isApart apart capital ?_
      rw [dotted]
      exact ⟨Nat.le_refl _, Nat.le_refl _, by decide⟩
  · have null : Char.ofNat (run.letter code) = '\x00' := by
      rw [Char.ofNat, dif_neg valid]
      rfl
    rw [null]
    exact ⟨by decide, by decide⟩

/-- The lower case of a character that is no sigma is small. -/
theorem isSmall_of_mem_lowerChar {c d : Char} (noSigma : c ≠ 'Σ') (member : d ∈ lowerChar c) :
    IsSmall d := by
  by_cases ascii : c.toNat < 128
  · have letters : ∀ code ∈ List.range 128, (Char.ofNat code).toLower ≠ 'Σ' ∧
        lowerChar (Char.ofNat code).toLower = [(Char.ofNat code).toLower] := by decide +kernel
    rw [lowerChar, if_pos ascii, List.mem_singleton] at member
    have here := letters c.toNat (List.mem_range.mpr ascii)
    rw [Char.ofNat_toNat, ← member] at here
    exact ⟨here.1, here.2⟩
  · rw [lowerChar, if_neg ascii] at member
    by_cases dotted : c.toNat = 0x130
    · rw [if_pos dotted] at member
      rcases List.mem_cons.mp member with rfl | behind
      · exact ⟨by decide, by decide⟩
      · rw [List.mem_singleton.mp behind]
        exact ⟨by decide, by decide +kernel⟩
    · rw [if_neg dotted] at member
      rw [List.mem_singleton.mp member]
      rcases smallLetter_cases caseRuns c.toNat with same | ⟨run, listed, capital, small⟩
      · rw [same, Char.ofNat_toNat]
        refine ⟨noSigma, ?_⟩
        rw [lowerChar, if_neg ascii, if_neg dotted, same, Char.ofNat_toNat]
      · rw [small]
        exact isSmall_letter listed capital

/-- Every character of a text in lower case is small. -/
theorem isSmall_of_mem_lowerFrom {afterCased : Bool} {text : List Char} {d : Char}
    (member : d ∈ lowerFrom afterCased text) : IsSmall d := by
  induction text generalizing afterCased with
  | nil => simp [lowerFrom] at member
  | cons c later inductionHypothesis =>
    rw [lowerFrom] at member
    rcases List.mem_append.mp member with here | behind
    · by_cases sigma : c = 'Σ'
      · rw [if_pos sigma, List.mem_singleton] at here
        rw [here]
        split
        · exact ⟨by decide, by decide +kernel⟩
        · exact ⟨by decide, by decide +kernel⟩
      · rw [if_neg sigma] at here
        exact isSmall_of_mem_lowerChar sigma here
    · exact inductionHypothesis behind

/-- A text of small characters is in lower case. -/
theorem lowerFrom_of_isSmall {text : List Char} (small : ∀ c ∈ text, IsSmall c)
    (afterCased : Bool) : lowerFrom afterCased text = text := by
  induction text generalizing afterCased with
  | nil => rfl
  | cons c later inductionHypothesis =>
    obtain ⟨noSigma, alone⟩ := small c List.mem_cons_self
    have behind := inductionHypothesis fun d member => small d (List.mem_cons_of_mem _ member)
    rw [lowerFrom, if_neg noSigma, alone, behind, List.singleton_append]

/-- The lower case of a text is in lower case. -/
theorem lower_lower (text : List Char) : lower (lower text) = lower text :=
  lowerFrom_of_isSmall (fun _ member => isSmall_of_mem_lowerFrom member) false

/-- The lower case of a string is in lower case. -/
theorem lowered_lowered (text : String) : lowered (lowered text) = lowered text := by
  rw [lowered, lowered, String.toList_ofList, lower_lower]

end MetricQuery.Text
