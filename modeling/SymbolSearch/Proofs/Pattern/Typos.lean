import SymbolSearch.Proofs.Codec.Reader
import SymbolSearch.Proofs.Find.ByPattern
import SymbolSearch.Proofs.Merge.Effective
import SymbolSearch.Proofs.Pattern.Distance

/-!
# Names a few edits away

Edits are counted in characters, but names are first sorted out by their lengths in bytes. A name is
too short in bytes only if it is so in characters. It may be too long in bytes while it is not in
characters, and then it is missed.
-/

namespace SymbolSearch

namespace Pattern

/-! ### Bytes and characters -/

theorem lt_of_isLetter {b : UInt8} (h : isLetter b = true) : b.toNat < 128 := by
  simp only [isLetter, isUpper, isLower, Bool.or_eq_true, Bool.and_eq_true, decide_eq_true_eq,
    UInt8.le_iff_toNat_le, UInt8.reduceToNat] at h
  omega

/-- All bytes of a character of several bytes lie beyond ASCII. -/
theorem le_of_mem_utf8EncodeChar {c : Char} (hsize : c.utf8Size ≠ 1) :
    ∀ b ∈ String.utf8EncodeChar c, 128 ≤ b.toNat := by
  have hnil : ∀ b ∈ ([] : Bytes), 128 ≤ b.toNat := fun b hb => by cases hb
  have hcons (x k : Nat) (hk : 128 ≤ k) (hx : x + k < 256) {rest : Bytes}
      (hrest : ∀ b ∈ rest, 128 ≤ b.toNat) : ∀ b ∈ UInt8.ofNat (x + k) :: rest, 128 ≤ b.toNat := by
    refine List.forall_mem_cons.2 ⟨?_, hrest⟩
    rw [UInt8.toNat_ofNat', Nat.mod_eq_of_lt hx]
    omega
  rw [String.utf8EncodeChar]
  split
  · rename_i hvalue
    exact absurd (Char.utf8Size_eq_one_iff.2 (UInt32.le_iff_toNat_le.2 hvalue)) hsize
  · have hlast := hcons (c.val.toNat % 64) 128 (by omega) (by omega) hnil
    have hbefore := hcons (c.val.toNat / 64 % 64) 128 (by omega) (by omega) hlast
    split
    · exact hcons _ _ (by omega) (by omega) hlast
    · split
      · exact hcons _ _ (by omega) (by omega) hbefore
      · exact hcons _ _ (by omega) (by omega) (hcons _ _ (by omega) (by omega) hbefore)

theorem utf8Size_of_isLetter {c : Char}
    (h : ∀ b ∈ String.utf8EncodeChar c, isLetter b = true) : c.utf8Size = 1 := by
  by_contra hsize
  obtain ⟨b, rest, hbytes⟩ := List.exists_cons_of_ne_nil (@String.utf8EncodeChar_ne_nil c)
  have hb : b ∈ String.utf8EncodeChar c := hbytes ▸ List.mem_cons_self
  have hlarge := le_of_mem_utf8EncodeChar hsize b hb
  have hsmall := lt_of_isLetter (h b hb)
  omega

theorem length_of_isLetter {text : String}
    (h : ∀ b ∈ Bytes.ofString text, isLetter b = true) :
    (Bytes.ofString text).length = text.toList.length := by
  rw [Bytes.ofString_eq_flatMap] at h ⊢
  generalize text.toList = cs at h
  induction cs with
  | nil => rfl
  | cons c rest ih =>
    rw [List.flatMap_cons] at h ⊢
    have hc := utf8Size_of_isLetter fun b hb => h b (List.mem_append_left _ hb)
    have hrest := ih fun b hb => h b (List.mem_append_right _ hb)
    rw [List.length_append, String.length_utf8EncodeChar, hc, hrest, List.length_cons]
    omega

/-! ### The shortcut -/

theorem length_toLower (text : String) : text.toLower.toList.length = text.toList.length := by
  change (String.map Char.toLower text).toList.length = _
  rw [String.toList_map, List.length_map]

theorem exists_editThreshold {length : Nat} (h : 3 ≤ length) :
    ∃ t, editThreshold length = some t := by
  rw [editThreshold, if_neg (by omega)]
  split
  · exact ⟨1, rfl⟩
  · exact ⟨2, rfl⟩

variable {pattern : Pattern} {name : String} {d t : Nat}

/-- A name that is too short in bytes is too short in characters too. -/
theorem length_le_of_edits (hletters : ∀ b ∈ pattern.bytes, isLetter b = true)
    (h : Edits d pattern.text.toLower.toList name.toLower.toList) :
    pattern.bytes.length ≤ name.utf8ByteSize + d := by
  have hlength := h.length_le.1
  have hpattern := length_of_isLetter hletters
  have hname := Bytes.length_toList_le name
  rw [length_toLower, length_toLower] at hlength
  rw [Bytes.length_ofString] at hname
  change pattern.bytes.length = _ at hpattern
  omega

/-- A name of one byte for each character is too long in bytes only if it is in characters. -/
theorem utf8ByteSize_le_of_edits (hletters : ∀ b ∈ pattern.bytes, isLetter b = true)
    (hname : name.utf8ByteSize = name.length)
    (h : Edits d pattern.text.toLower.toList name.toLower.toList) :
    name.utf8ByteSize ≤ pattern.bytes.length + d := by
  have hlength := h.length_le.2
  have hpattern := length_of_isLetter hletters
  rw [length_toLower, length_toLower, String.length_toList] at hlength
  change pattern.bytes.length = _ at hpattern
  omega

theorem scoreEdits_eq (hsize : 3 ≤ pattern.bytes.length)
    (hletters : ∀ b ∈ pattern.bytes, isLetter b = true)
    (ht : editThreshold pattern.bytes.length = some t)
    (hd : IsLeast {n | Edits n pattern.text.toLower.toList name.toLower.toList} d) :
    pattern.scoreEdits name
      = if 1 ≤ d ∧ d ≤ t ∧ name.utf8ByteSize ≤ pattern.bytes.length + t then
          some ⟨.editDistance, -d⟩
        else none := by
  have hsupports : pattern.supportsEditDistance = true :=
    SymbolIndex.supportsEditDistance_iff.2 ⟨hsize, hletters⟩
  have hdistance : editDistance pattern.text.toLower.toList name.toLower.toList = d :=
    (isLeast_editDistance _ _).unique hd
  have hshort := length_le_of_edits hletters hd.1
  simp only [scoreEdits, hsupports, ht, hdistance, Bool.not_true, Bool.false_eq_true, if_false,
    Option.bind_eq_bind, Option.bind_some]
  by_cases hclose : 1 ≤ d ∧ d ≤ t ∧ name.utf8ByteSize ≤ pattern.bytes.length + t
  · rw [if_pos hclose, if_neg (by omega), if_neg (by omega)]
  · rw [if_neg hclose]
    split
    · rfl
    · exact if_pos (by omega)

theorem scoreEdits_eq_none
    (h : ¬ (3 ≤ pattern.bytes.length ∧ ∀ b ∈ pattern.bytes, isLetter b = true)) :
    pattern.scoreEdits name = none := by
  have hsupports : pattern.supportsEditDistance = false :=
    Bool.eq_false_iff.2 fun hsupports => h (SymbolIndex.supportsEditDistance_iff.1 hsupports)
  rw [scoreEdits, hsupports]
  rfl

theorem ofText?_of_ne (text : String) (h : Text.trim text ≠ "") :
    ofText? text = some ⟨Text.trim text⟩ := by
  rw [ofText?, if_neg fun hblank => h (Text.trim_eq_empty_iff.2 hblank)]

/-- A name fits by edits if the pattern is of letters, three at least, and at least one edit and at
most as many as are forgiven take it to the name, capitals counting as small letters. But the name
must not be longer in bytes than the pattern can become in characters. This makes no difference for
names of one byte for each character. -/
theorem scoreEdits_distance (text name : String) :
    let pattern := Text.trim text
    let bytes := Bytes.ofString pattern
    let fit? := (Pattern.ofText? text).bind (·.scoreEdits name)
    (3 ≤ bytes.length ∧ (∀ b ∈ bytes, isLetter b = true) →
      ∃ d t, IsLeast {n | Edits n pattern.toLower.toList name.toLower.toList} d
      ∧ editThreshold bytes.length = some t
      ∧ (fit? = if 1 ≤ d ∧ d ≤ t ∧ name.utf8ByteSize ≤ bytes.length + t then
          some ⟨.editDistance, -d⟩
        else none)
      ∧ (name.utf8ByteSize = name.length → d ≤ t → name.utf8ByteSize ≤ bytes.length + t))
    ∧ (¬ (3 ≤ bytes.length ∧ ∀ b ∈ bytes, isLetter b = true) → fit? = none) := by
  intro pattern bytes fit?
  constructor
  · rintro ⟨hsize, hletters⟩
    obtain ⟨t, ht⟩ := exists_editThreshold hsize
    have hleast := isLeast_editDistance pattern.toLower.toList name.toLower.toList
    refine ⟨_, t, hleast, ht, ?_, fun hname hd => ?_⟩
    · have hne : pattern ≠ "" := by
        intro hempty
        have hbytes : bytes = Bytes.ofString "" := congrArg Bytes.ofString hempty
        rw [hbytes, Bytes.length_ofString] at hsize
        exact absurd hsize (by decide)
      change (Pattern.ofText? text).bind _ = _
      rw [ofText?_of_ne text hne]
      exact @scoreEdits_eq ⟨pattern⟩ name _ t hsize hletters ht hleast
    · have hle := @utf8ByteSize_le_of_edits ⟨pattern⟩ name _ hletters hname hleast.1
      change name.utf8ByteSize ≤ bytes.length + _ at hle
      omega
  · intro h
    by_cases hempty : pattern = ""
    · change (Pattern.ofText? text).bind _ = _
      rw [ofText?, if_pos (Text.trim_eq_empty_iff.1 hempty)]
      rfl
    · change (Pattern.ofText? text).bind _ = _
      rw [ofText?_of_ne text hempty]
      exact @scoreEdits_eq_none ⟨pattern⟩ name h

/-- Two letters are swapped and get another one between them, at two edits in all. -/
theorem scoreEdits_distance_of_swap :
    let bytes := Bytes.ofString (Text.trim " Readca")
    (3 ≤ bytes.length ∧ ∀ b ∈ bytes, isLetter b = true)
      ∧ IsLeast {n | Edits n "readca".toList "readabc".toList} 2
      ∧ (Pattern.ofText? " Readca").bind (·.scoreEdits "readABC") = some ⟨.editDistance, -2⟩ := by
  intro bytes
  have hbytes : 3 ≤ bytes.length ∧ ∀ b ∈ bytes, isLetter b = true := by decide +kernel
  have hpattern : (Text.trim " Readca").toLower.toList = "readca".toList := by decide +kernel
  have hname : "readABC".toLower.toList = "readabc".toList := by decide +kernel
  have hleast : IsLeast {n | Edits n "readca".toList "readabc".toList} 2 := by
    have hdistance : editDistance "readca".toList "readabc".toList = 2 := by decide +kernel
    exact hdistance ▸ isLeast_editDistance _ _
  obtain ⟨d, t, hd, ht, hfit, -⟩ := (scoreEdits_distance " Readca" "readABC").1 hbytes
  rw [hpattern, hname] at hd
  obtain rfl := hd.unique hleast
  have hthreshold : editThreshold bytes.length = some 2 := by decide +kernel
  obtain rfl := Option.some.inj (ht.symm.trans hthreshold)
  refine ⟨hbytes, hleast, ?_⟩
  rw [hfit]
  decide +kernel

/-- One more character is one edit, which is forgiven, but the name is missed if it takes three
bytes. -/
theorem scoreEdits_misses_wide_character :
    let bytes := Bytes.ofString (Text.trim "abc")
    (3 ≤ bytes.length ∧ ∀ b ∈ bytes, isLetter b = true)
      ∧ editThreshold bytes.length = some 1
      ∧ IsLeast {n | Edits n (Text.trim "abc").toLower.toList "ab日".toLower.toList} 1
      ∧ (Pattern.ofText? "abc").bind (·.scoreEdits "ab日") = none := by
  intro bytes
  have hdistance : editDistance (Text.trim "abc").toLower.toList "ab日".toLower.toList = 1 := by
    decide +kernel
  have hleast := isLeast_editDistance (Text.trim "abc").toLower.toList "ab日".toLower.toList
  rw [hdistance] at hleast
  exact ⟨by decide +kernel, by decide +kernel, hleast, by decide +kernel⟩

end Pattern

end SymbolSearch
