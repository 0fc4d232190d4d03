import SymbolSearch.Proofs.Find.FullName
import SymbolSearch.Proofs.Pattern.Typos

/-!
# The case of a pattern

Two patterns of the same letters, whatever their case, fit the same names in the same way, and a
search lists the same symbols for both. Only the order may differ, as some fits are worth more for
every letter that has the very case of the pattern.
-/

namespace SymbolSearch

/-! ### Small letters -/

namespace Text

/-- Only the capitals from A to Z are changed. -/
theorem toLower_cases (c : Char) :
    (65 ≤ c.toNat ∧ c.toNat ≤ 90) ∧ c.toLower.toNat = c.toNat + 32
      ∨ ¬ (65 ≤ c.toNat ∧ c.toNat ≤ 90) ∧ c.toLower = c := by
  have hcapital : (c.val ≥ 'A'.val ∧ c.val ≤ 'Z'.val) ↔ 65 ≤ c.toNat ∧ c.toNat ≤ 90 := by
    rw [ge_iff_le, UInt32.le_iff_toNat_le, UInt32.le_iff_toNat_le]
    rfl
  by_cases h : c.val ≥ 'A'.val ∧ c.val ≤ 'Z'.val
  · have hlower : c.toLower.val = c.val + 32 := congrArg Char.val (dif_pos h)
    have hle : c.val.toNat ≤ 90 := (hcapital.1 h).2
    refine .inl ⟨hcapital.1 h, ?_⟩
    change c.toLower.val.toNat = c.val.toNat + 32
    rw [hlower, UInt32.toNat_add]
    exact Nat.mod_eq_of_lt (show c.val.toNat + 32 < 2 ^ 32 by omega)
  · exact .inr ⟨mt hcapital.2 h, dif_neg h⟩

theorem toList_toLower (text : String) : text.toLower.toList = text.toList.map Char.toLower :=
  String.toList_map

theorem isBlankChar_of_ascii {c : Char} (h : 65 ≤ c.toNat) (hascii : c.toNat < 128) :
    isBlankChar c = false := by
  simp [isBlankChar, inRanges, blankRanges]
  omega

/-- No letter is blank. -/
theorem isBlankChar_comp_toLower : isBlankChar ∘ Char.toLower = isBlankChar := by
  funext c
  rw [Function.comp_apply]
  rcases toLower_cases c with ⟨h, hlower⟩ | ⟨-, hlower⟩
  · rw [isBlankChar_of_ascii (by omega) (by omega), isBlankChar_of_ascii h.1 (by omega)]
  · rw [hlower]

theorem isBlank_toLower (text : String) : isBlank text.toLower = isBlank text := by
  rw [isBlank, toList_toLower, List.all_map, isBlankChar_comp_toLower, isBlank]

theorem trim_toLower (text : String) : trim text.toLower = (trim text).toLower := by
  apply String.toList_injective
  rw [toList_toLower, trim, trim, String.toList_ofList, String.toList_ofList, toList_toLower]
  simp only [trimChars, dropTrailing, List.dropWhile_map, isBlankChar_comp_toLower,
    ← List.map_reverse]

variable {text other : String} (h : text.toLower = other.toLower)

include h

theorem isBlank_eq_of_toLower : isBlank text = isBlank other := by
  rw [← isBlank_toLower, h, isBlank_toLower]

theorem trim_eq_of_toLower : (trim text).toLower = (trim other).toLower := by
  rw [← trim_toLower, h, trim_toLower]

end Text

namespace Pattern

theorem isUpper_iff {b : UInt8} : isUpper b = true ↔ 65 ≤ b.toNat ∧ b.toNat ≤ 90 := by
  simp only [isUpper, Bool.and_eq_true, decide_eq_true_eq, UInt8.le_iff_toNat_le,
    UInt8.reduceToNat]

theorem fold_of_capital {b : UInt8} (h : 65 ≤ b.toNat ∧ b.toNat ≤ 90) : fold b = b + 32 := by
  rw [fold, if_pos (isUpper_iff.2 h)]

theorem fold_eq_self {b : UInt8} (h : ¬ (65 ≤ b.toNat ∧ b.toNat ≤ 90)) : fold b = b := by
  rw [fold, if_neg fun hupper => h (isUpper_iff.1 hupper)]

theorem isLetter_fold (b : UInt8) : isLetter (fold b) = isLetter b := by
  by_cases h : 65 ≤ b.toNat ∧ b.toNat ≤ 90
  · have hadd : (b + 32).toNat = b.toNat + 32 := by
      rw [UInt8.toNat_add]
      exact Nat.mod_eq_of_lt (show b.toNat + 32 < 2 ^ 8 by omega)
    have hletter : isLower (b + 32) = true := by
      simp only [isLower, Bool.and_eq_true, decide_eq_true_eq, UInt8.le_iff_toNat_le, hadd,
        UInt8.reduceToNat]
      omega
    rw [fold_of_capital h, isLetter, hletter, Bool.or_true, isLetter, isUpper_iff.2 h, Bool.true_or]
  · rw [fold_eq_self h]

theorem foldBytes_utf8EncodeChar (c : Char) :
    foldBytes (String.utf8EncodeChar c) = String.utf8EncodeChar c.toLower := by
  by_cases hsize : c.utf8Size = 1
  · have hle : c.val.toNat ≤ 127 := UInt32.le_iff_toNat_le.1 (Char.utf8Size_eq_one_iff.1 hsize)
    have hbyte : (UInt8.ofNat c.val.toNat).toNat = c.toNat := by
      rw [UInt8.toNat_ofNat']
      exact Nat.mod_eq_of_lt (show c.val.toNat < 2 ^ 8 by omega)
    have hbytes : String.utf8EncodeChar c = [UInt8.ofNat c.val.toNat] := by
      rw [String.utf8EncodeChar, if_pos hle]
    rw [hbytes]
    change [fold _] = _
    rcases Text.toLower_cases c with ⟨h, hlower⟩ | ⟨h, hlower⟩
    · have hvalue : c.toLower.val.toNat = c.val.toNat + 32 := hlower
      have hle' : c.val.toNat ≤ 90 := h.2
      rw [fold_of_capital (hbyte ▸ h), String.utf8EncodeChar, hvalue, if_pos (by omega),
        UInt8.ofNat_add]
      rfl
    · rw [fold_eq_self (hbyte ▸ h), hlower, hbytes]
  · have hcapital : ¬ (65 ≤ c.toNat ∧ c.toNat ≤ 90) := by
      rintro ⟨-, hle⟩
      refine hsize (Char.utf8Size_eq_one_iff.2 (UInt32.le_iff_toNat_le.2 ?_))
      exact Nat.le_trans hle (by decide)
    have hlower : c.toLower = c := ((Text.toLower_cases c).resolve_left fun h => hcapital h.1).2
    rw [hlower]
    calc foldBytes (String.utf8EncodeChar c) = (String.utf8EncodeChar c).map id := by
          refine List.map_congr_left fun b hb => fold_eq_self ?_
          have hlarge := le_of_mem_utf8EncodeChar hsize b hb
          omega
      _ = String.utf8EncodeChar c := List.map_id _

/-- The bytes of a text in small letters are those of the text, folded. -/
theorem foldBytes_ofString (text : String) :
    foldBytes (Bytes.ofString text) = Bytes.ofString text.toLower := by
  rw [Bytes.ofString_eq_flatMap, Bytes.ofString_eq_flatMap, Text.toList_toLower, List.flatMap_map,
    foldBytes, List.map_flatMap]
  exact List.flatMap_congr fun c _ => foldBytes_utf8EncodeChar c

/-! ### Fits -/

end Pattern

namespace MatchScore

/-- Fits of the same kind. The case of letters counts for nothing in abbreviations and edits. -/
structure Alike (a b : MatchScore) : Prop where
  kind : a.kind = b.kind
  score : a.kind = .camelCase ∨ a.kind = .editDistance → a.score = b.score

/-- Nothing fits, or both fits are alike. -/
abbrev AllAlike : Option MatchScore → Option MatchScore → Prop := Option.Rel Alike

theorem AllAlike.refl (fit? : Option MatchScore) : AllAlike fit? fit? := by
  cases fit? with
  | none => exact .none
  | some fit => exact .some ⟨rfl, fun _ => rfl⟩

theorem AllAlike.isSome_eq {a b : Option MatchScore} (h : AllAlike a b) : a.isSome = b.isSome := by
  cases h with
  | none => rfl
  | some h => rfl

theorem AllAlike.orElse {a b c d : Option MatchScore} (h : AllAlike a b) (hlast : AllAlike c d) :
    AllAlike (a <|> c) (b <|> d) := by
  cases h with
  | none => exact hlast
  | some h => exact .some h

end MatchScore

namespace Pattern

open MatchScore

section

variable {pattern other : Bytes} (h : foldBytes pattern = foldBytes other)

include h

theorem length_eq_of_folded : pattern.length = other.length := by
  rw [← length_foldBytes, h, length_foldBytes]

theorem alike_scoreInside (name : Bytes) :
    AllAlike (scoreInside pattern name) (scoreInside other name) := by
  simp only [scoreInside, h]
  split
  · exact .some ⟨rfl, fun hkind => by simp at hkind⟩
  · exact .refl _

/-- Where a pattern stands in a name does not depend on its case. -/
theorem alike_scoreBytes (name : Bytes) :
    AllAlike (scoreBytes pattern name) (scoreBytes other name) := by
  have hlength := length_eq_of_folded h
  rcases eq_or_prefix_or_not pattern name with heq | ⟨hbegins, hlonger⟩ | hnot
  · rw [scoreBytes_of_eq heq, scoreBytes_of_eq (heq.trans h)]
    exact .some ⟨rfl, fun hkind => by simp at hkind⟩
  · rw [scoreBytes_of_begins hbegins hlonger,
      scoreBytes_of_begins (h ▸ hbegins) (hlength ▸ hlonger)]
    exact .some ⟨rfl, fun hkind => by simp at hkind⟩
  · rw [scoreBytes_of_not_begins hnot, scoreBytes_of_not_begins (h ▸ hnot), hlength]
    split
    · exact .none
    · exact alike_scoreInside h name

end

section

variable {pattern other : Pattern} (h : pattern.text.toLower = other.text.toLower)

include h

theorem foldBytes_eq_of_toLower : foldBytes pattern.bytes = foldBytes other.bytes := by
  rw [bytes, bytes, foldBytes_ofString, foldBytes_ofString, h]

theorem alike_score (name : String) : AllAlike (pattern.score name) (other.score name) :=
  alike_scoreBytes (foldBytes_eq_of_toLower h) _

theorem supportsEditDistance_eq : pattern.supportsEditDistance = other.supportsEditDistance := by
  have hfolded := foldBytes_eq_of_toLower h
  have hletters (bytes : Bytes) : bytes.all isLetter = (foldBytes bytes).all isLetter := by
    rw [foldBytes, List.all_map]
    exact congrArg bytes.all (funext fun b => (isLetter_fold b).symm)
  rw [supportsEditDistance, supportsEditDistance, length_eq_of_folded hfolded, hletters, hfolded,
    ← hletters]

/-- Edits are counted between small letters only. -/
theorem scoreEdits_eq_of_toLower (name : String) :
    pattern.scoreEdits name = other.scoreEdits name := by
  have hlength := length_eq_of_folded (foldBytes_eq_of_toLower h)
  rw [scoreEdits, scoreEdits, supportsEditDistance_eq h, hlength, h]

end

theorem alike_patternMatch {text other : String} (h : text.toLower = other.toLower)
    (name : String) : AllAlike (patternMatch text name) (patternMatch other name) := by
  let a : Pattern := ⟨Text.trim text⟩
  let b : Pattern := ⟨Text.trim other⟩
  have hlower : a.text.toLower = b.text.toLower := Text.trim_eq_of_toLower h
  rw [patternMatch, patternMatch, ofText?, ofText?, Text.isBlank_eq_of_toLower h]
  split
  · exact .none
  · change AllAlike (a.score name <|> a.scoreEdits name) (b.score name <|> b.scoreEdits name)
    rw [scoreEdits_eq_of_toLower hlower]
    exact (alike_score hlower name).orElse (.refl _)

end Pattern

/-! ### Searches -/

namespace SymbolIndex

variable {index : SymbolIndex} {options : FindOptions} {score other : String → Option MatchScore}

theorem isSome_fit?_eq (h : ∀ name, (score name).isSome = (other name).isSome) (handle : Nat) :
    (index.fit? score handle).isSome = (index.fit? other handle).isSome := by
  rw [fit?, fit?]
  cases index.name? handle with
  | none => rfl
  | some name => exact h name

/-- The same symbols are listed if the same names fit, however well they do. -/
theorem listed_perm (h : ∀ name, (score name).isSome = (other name).isSome) :
    (index.listed options score).Perm (index.listed options other) := by
  refine (List.perm_ext_iff_of_nodup ranks_listed.nodup ranks_listed.nodup).2 fun handle => ?_
  rw [ranks_listed.mem, ranks_listed.mem, isSome_fit?_eq h]

theorem isEmpty_scoreGroups_eq (h : ∀ name, (score name).isSome = (other name).isSome) :
    (scoreGroups score (index.acceptedGroups options)).isEmpty
      = (scoreGroups other (index.acceptedGroups options)).isEmpty := by
  rw [Bool.eq_iff_iff, isEmpty_scoreGroups_iff, isEmpty_scoreGroups_iff, AnyFits, AnyFits]
  simp only [isSome_fit?_eq h]

theorem find_of_blank (index : SymbolIndex) {text : String} (h : Text.isBlank text = true) :
    index.find (.named (.fuzzy text)) options = [] := by
  have hblank : (Query.named (.fuzzy text)).isBlank = true := h
  rw [find, hblank, Bool.or_true]
  rfl

/-- The same symbols are found by patterns that differ in case, be it that their names fit or that
they are a few edits away. -/
theorem find_perm_of_toLower (index : SymbolIndex) (hfilter : options.filter.isEmpty = false)
    {a b : Pattern} (hlower : a.text.toLower = b.text.toLower) {text other : String}
    (htext : Text.isBlank text = false) (hother : Text.isBlank other = false)
    (ha : a = ⟨Text.trim text⟩) (hb : b = ⟨Text.trim other⟩) :
    (index.find (.named (.fuzzy text)) options).Perm
      (index.find (.named (.fuzzy other)) options) := by
  have hfits (name : String) := (Pattern.alike_score hlower name).isSome_eq
  have hedits := funext (Pattern.scoreEdits_eq_of_toLower hlower)
  rw [find_fuzzy_eq htext hfilter ha, find_fuzzy_eq hother hfilter hb,
    isEmpty_scoreGroups_eq hfits, hedits]
  split
  · exact .refl _
  · exact listed_perm hfits

end SymbolIndex

/-- For patterns that differ in nothing but the case of letters from A to Z, a name fits both or
neither, in the same way. The fits of an abbreviation or of a few edits have the same scores. In
every index, a search finds the same symbols for both, each of them once. -/
theorem patternMatch_ignores_case (text other : String) (h : text.toLower = other.toLower) :
    (∀ name, MatchScore.AllAlike (patternMatch text name) (patternMatch other name))
    ∧ ∀ (index : SymbolIndex) (options : FindOptions),
      (index.find (.named (.fuzzy text)) options).Perm
        (index.find (.named (.fuzzy other)) options) := by
  have hblank := Text.isBlank_eq_of_toLower h
  refine ⟨Pattern.alike_patternMatch h, fun index options => ?_⟩
  cases hfilter : options.filter.isEmpty with
  | true => rw [index.find_eq_nil _ hfilter, index.find_eq_nil _ hfilter]
  | false =>
    cases hother : Text.isBlank other with
    | true => rw [index.find_of_blank (hblank.trans hother), index.find_of_blank hother]
    | false =>
      exact index.find_perm_of_toLower hfilter (Text.trim_eq_of_toLower h) (hblank.trans hother)
        hother rfl rfl

/-- Classes named in different cases are found by a pattern of either case, but they do not fit both
patterns equally well. -/
theorem patternMatch_ignores_case_of_capitals :
    let classes := ["READER", "Reader"].map (Declaration.ofName .classDecl)
    let index := SymbolIndex.build { info := Sample.project 1 classes }
    " reader".toLower = " READER".toLower
      ∧ patternMatch " reader" "Reader" = some ⟨.exact, 5⟩
      ∧ patternMatch " READER" "Reader" = some ⟨.exact, 1⟩
      ∧ MatchScore.AllAlike (patternMatch " reader" "Reader") (patternMatch " READER" "Reader")
      ∧ ∀ handle < 2, handle ∈ index.find (.named (.fuzzy " reader")) {}
        ∧ handle ∈ index.find (.named (.fuzzy " READER")) {} := by
  intro classes index
  have hlower : " reader".toLower = " READER".toLower :=
    String.toList_injective (by decide +kernel)
  obtain ⟨halike, hperm⟩ := patternMatch_ignores_case " reader" " READER" hlower
  let pattern : Pattern := ⟨Text.trim " reader"⟩
  have hfits : ∀ handle < 2, index.accepts {} handle = true
      ∧ (index.fit? pattern.score handle).isSome = true := by decide +kernel
  have htext : Text.isBlank " reader" = false := by decide +kernel
  have hranks : index.Ranks {} pattern.score (index.find (.named (.fuzzy " reader")) {}) :=
    (index.find_fuzzy_ranks " reader" {} htext (by decide)).1 ⟨0, hfits 0 (by decide)⟩
  refine ⟨hlower, by decide +kernel, by decide +kernel, halike "Reader", fun handle h => ?_⟩
  have hfound := (hranks.mem handle).2 (hfits handle h)
  exact ⟨hfound, (hperm index {}).mem_iff.1 hfound⟩

end SymbolSearch
