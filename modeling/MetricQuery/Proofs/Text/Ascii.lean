import MetricQuery.Proofs.Text.Lowercase
import MetricQuery.Text.Ascii

/-!
# Two ways to make letters small

Names are compared in two ways: without regard to the case of ASCII letters, and in
lower case. The first is the finer one. An ASCII capital and its small letter are the
same to every rule of lower case, also where such a rule looks at the characters around
a sigma, so names that differ in ASCII capitals only are equal in lower case.

The converse holds for plain names, whose capitals are all ASCII. Names in capitals and
names in small letters, each only as far as ASCII goes, have the same small letters.
-/

namespace MetricQuery.Text

/-- A character is an ASCII capital or is its own small letter. -/
theorem toLower_cases (c : Char) : c.toNat ∈ List.range' 65 26 ∨ c.toLower = c := by
  by_cases capital : 'A'.val ≤ c.val ∧ c.val ≤ 'Z'.val
  · have lower : 65 ≤ c.toNat := capital.1
    have upper : c.toNat ≤ 90 := capital.2
    exact .inl (List.mem_range'_1.mpr ⟨lower, by omega⟩)
  · exact .inr (dif_neg capital)

/-- A small ASCII letter has a capital, and any other character is its own. -/
theorem toUpper_cases (c : Char) : c.toNat ∈ List.range' 97 26 ∨ c.toUpper = c := by
  by_cases small : 'a'.val ≤ c.val ∧ c.val ≤ 'z'.val
  · have lower : 97 ≤ c.toNat := small.1
    have upper : c.toNat ≤ 122 := small.2
    exact .inl (List.mem_range'_1.mpr ⟨lower, by omega⟩)
  · exact .inr (dif_neg small)

/-- Making a capital small is making the character small. -/
theorem toLower_toUpper (c : Char) : c.toUpper.toLower = c.toLower := by
  have letters : ∀ code ∈ List.range' 97 26,
      (Char.ofNat code).toUpper.toLower = (Char.ofNat code).toLower := by decide
  rcases toUpper_cases c with small | same
  · have letter := letters c.toNat small
    rwa [Char.ofNat_toNat] at letter
  · rw [same]

/-- Making a text of capitals small is making the text small. -/
theorem map_toLower_toUpper (text : List Char) :
    (text.map Char.toUpper).map Char.toLower = text.map Char.toLower := by
  rw [List.map_map]
  exact List.map_congr_left fun c _ => toLower_toUpper c

/-- Whether lower case makes no difference between two characters. -/
structure SameCase (c d : Char) : Prop where
  /-- One is a sigma only if the other is. -/
  sigma : c = 'Σ' ↔ d = 'Σ'
  /-- They are passed over alike. -/
  ignorable : caseIgnorable.contains c = caseIgnorable.contains d
  /-- They are cased alike. -/
  cased : cased.contains c = cased.contains d
  /-- They have the same lower case. -/
  lower : lowerChar c = lowerChar d

instance (c d : Char) : Decidable (SameCase c d) :=
  decidable_of_iff ((c = 'Σ' ↔ d = 'Σ') ∧ caseIgnorable.contains c = caseIgnorable.contains d ∧
      Text.cased.contains c = Text.cased.contains d ∧ lowerChar c = lowerChar d)
    ⟨fun ⟨sigma, ignorable, cased, lower⟩ => ⟨sigma, ignorable, cased, lower⟩,
      fun ⟨sigma, ignorable, cased, lower⟩ => ⟨sigma, ignorable, cased, lower⟩⟩

/-- Lower case makes no difference between an ASCII capital and its small letter. -/
theorem sameCase_toLower (c : Char) : SameCase c.toLower c := by
  have capitals : ∀ code ∈ List.range' 65 26,
      SameCase (Char.ofNat code).toLower (Char.ofNat code) := by decide +kernel
  rcases toLower_cases c with capital | same
  · have here := capitals c.toNat capital
    rwa [Char.ofNat_toNat] at here
  · rw [same]
    exact ⟨Iff.rfl, rfl, rfl, rfl⟩

/-- What is ahead of a text is cased whether its ASCII capitals are made small or not. -/
theorem casedAhead_map_toLower (text : List Char) :
    casedAhead (text.map Char.toLower) = casedAhead text := by
  induction text with
  | nil => rfl
  | cons c later inductionHypothesis =>
    obtain ⟨_, ignorable, cased, _⟩ := sameCase_toLower c
    rw [List.map_cons, casedAhead, casedAhead, ignorable, cased, inductionHypothesis]

/-- A text is put into the same lower case if its ASCII capitals are made small before. -/
theorem lowerFrom_map_toLower (afterCased : Bool) (text : List Char) :
    lowerFrom afterCased (text.map Char.toLower) = lowerFrom afterCased text := by
  induction text generalizing afterCased with
  | nil => rfl
  | cons c later inductionHypothesis =>
    obtain ⟨sigma, ignorable, cased, lower⟩ := sameCase_toLower c
    simp only [List.map_cons, lowerFrom, sigma, ignorable, cased, lower, casedAhead_map_toLower,
      inductionHypothesis]

/-- Names that differ in ASCII capitals only are equal in lower case. -/
theorem lowered_eq_of_sameName {left right : String} (same : sameName left right = true) :
    lowered left = lowered right := by
  have small : left.toList.map Char.toLower = right.toList.map Char.toLower :=
    of_decide_eq_true same
  rw [lowered, lowered, lower, lower, ← lowerFrom_map_toLower false left.toList, small,
    lowerFrom_map_toLower]

/-- Whether all capitals of a name are ASCII. -/
def IsPlain (name : String) : Prop := lowered name = smallAscii name

instance : DecidablePred IsPlain := fun _ => inferInstanceAs (Decidable (_ = _))

/-- Names are the same up to ASCII case if they are equal with small ASCII letters. -/
theorem sameName_iff (left right : String) :
    sameName left right = true ↔ smallAscii left = smallAscii right := by
  rw [sameName, smallAscii, smallAscii, decide_eq_true_iff, String.ofList_inj]

/-- No ASCII capital is left when all were made small. -/
theorem smallAscii_smallAscii (name : String) : smallAscii (smallAscii name) = smallAscii name := by
  have capitals : ∀ code ∈ List.range' 65 26,
      (Char.ofNat code).toLower.toLower = (Char.ofNat code).toLower := by decide
  have once : Char.toLower ∘ Char.toLower = Char.toLower := by
    funext c
    rcases toLower_cases c with capital | same
    · have here := capitals c.toNat capital
      rwa [Char.ofNat_toNat] at here
    · exact congrArg Char.toLower same
  rw [smallAscii, smallAscii, String.toList_ofList, List.map_map, once]

/-- A name in capitals has the same small letters. -/
theorem smallAscii_capitalAscii (name : String) :
    smallAscii (capitalAscii name) = smallAscii name := by
  rw [smallAscii, capitalAscii, String.toList_ofList, map_toLower_toUpper, smallAscii]

/-- A plain name is the same as its lower case. -/
theorem IsPlain.sameName_lowered {name : String} (plain : IsPlain name) :
    sameName name (lowered name) = true := by
  rw [sameName_iff, plain, smallAscii_smallAscii]

/-- Plain names that are equal in lower case are the same. -/
theorem IsPlain.sameName_of_lowered_eq {left right : String} (plain : IsPlain left)
    (otherPlain : IsPlain right) (equal : lowered left = lowered right) :
    sameName left right = true := by
  rw [sameName_iff, ← plain, ← otherPlain]
  exact equal

end MetricQuery.Text
