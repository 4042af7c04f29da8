import MarkupGrammar.Proofs.SimpleType.Spacing
import MarkupGrammar.Proofs.Text.Numeral

/-! # Binary values in base 16, written and read

Bytes are written in two lower-case digits each. What is read as a byte is a pair of its digits, in
either case, or a plus sign and a digit, since a pair is read as an unsigned numeral
(`read_eq_ok_iff`). So every text of bytes is read as these bytes, in whatever case, and what is
read is such a text exactly if there is no plus sign in it (`Builtin.hexBinary_values`). -/

namespace MarkupGrammar

namespace Hex

open Text

variable {byte : UInt8} {bytes : List UInt8} {c d : Char} {s pair : List Char}

/-! ## Writing -/

/-- The two digits of a byte in lower case. -/
def byteText (byte : UInt8) : List Char :=
  [(byte.toNat / 16).digitChar, (byte.toNat % 16).digitChar]

/-- The digits of bytes in lower case, two for each. -/
def text (bytes : List UInt8) : List Char := bytes.flatMap byteText

/-- The texts that are read as a byte: its digits in either case, or, if the first one is a zero, a
plus sign and the second one. -/
inductive Denotes (byte : UInt8) : List Char → Prop
  | digits {c d : Char} (h : [c.toLower, d.toLower] = byteText byte) : Denotes byte [c, d]
  | plus {d : Char} (h : ['0', d.toLower] = byteText byte) : Denotes byte ['+', d]

/-- A text of parts, each of which is read as a byte. -/
def Reads (bytes : List UInt8) (s : List Char) : Prop :=
  ∃ pairs, s = pairs.flatten ∧ List.Forall₂ Denotes bytes pairs

theorem digitValue?_eq_div (h : [c.toLower, d.toLower] = byteText byte) :
    digitValue? 16 c = some (byte.toNat / 16) ∧ digitValue? 16 d = some (byte.toNat % 16) := by
  have hbyte : byte.toNat < 256 := byte.toNat_lt
  simp only [byteText, List.cons.injEq, and_true] at h
  exact ⟨digitValue?_sixteen.mpr ⟨by omega, h.1⟩, digitValue?_sixteen.mpr ⟨by omega, h.2⟩⟩

/-- Behind a plus sign stands the byte itself. -/
theorem digitValue?_of_plus (h : ['0', d.toLower] = byteText byte) :
    digitValue? 16 d = some byte.toNat := by
  have h0 : '0'.toLower = '0' := by decide
  have hpair : ['0'.toLower, d.toLower] = byteText byte := by rw [h0, h]
  obtain ⟨hzero, hd⟩ := digitValue?_eq_div hpair
  have hhigh : 0 = byte.toNat / 16 := Option.some.inj (hzero ▸ rfl : some 0 = _)
  have hmod : byte.toNat % 16 = byte.toNat := by omega
  rw [hd, hmod]

/-! ## Pairs -/

theorem toUInt8_eq {n : ℕ} (hn : n < 256) : n.toUInt8 = byte ↔ n = byte.toNat := by
  have hbyte : byte.toNat < 256 := byte.toNat_lt
  rw [← UInt8.toNat_inj]
  change n % 256 = byte.toNat ↔ _
  omega

theorem zero_digit (hlow : digitValue? 16 d = some byte.toNat) :
    ['0', d.toLower] = byteText byte := by
  obtain ⟨hlt, hd⟩ := digitValue?_sixteen.mp hlow
  have hhigh : byte.toNat / 16 = 0 := by omega
  have hmod : byte.toNat % 16 = byte.toNat := by omega
  rw [byteText, hhigh, hmod, hd]
  rfl

/-- **A pair is read as a byte** if it is a text of this byte. -/
theorem readPair_eq_ok_iff : readPair [c, d] = .ok byte ↔ Denotes byte [c, d] := by
  unfold readPair
  constructor
  · intro h
    split at h
    · rename_i n hn
      have hbyte := Except.ok.inj h
      rcases unsigned?_two.mp hn with ⟨rfl, hd⟩ | ⟨high, low, hc, hd, rfl⟩
      · have hlt := digitValue?_lt hd
        rw [toUInt8_eq (by omega)] at hbyte
        exact .plus (zero_digit (hbyte ▸ hd))
      · obtain ⟨hhigh, hc⟩ := digitValue?_sixteen.mp hc
        obtain ⟨hlow, hd⟩ := digitValue?_sixteen.mp hd
        rw [toUInt8_eq (by omega)] at hbyte
        have hdiv : byte.toNat / 16 = high := by omega
        have hmod : byte.toNat % 16 = low := by omega
        refine .digits ?_
        rw [byteText, hdiv, hmod, hc, hd]
    · exact nomatch h
  · intro h
    have hbyte : byte.toNat < 256 := byte.toNat_lt
    have hn : unsigned? 16 [c, d] = some byte.toNat := by
      cases h with
      | digits h =>
        obtain ⟨hc, hd⟩ := digitValue?_eq_div h
        exact unsigned?_two.mpr (.inr ⟨_, _, hc, hd, by omega⟩)
      | plus h => exact unsigned?_two.mpr (.inl ⟨rfl, digitValue?_of_plus h⟩)
    rw [hn]
    exact congrArg _ ((toUInt8_eq hbyte).mpr rfl)

/-- A character of two bytes is no pair. -/
theorem readPair_one (hc : c.utf8Size = 2) : readPair [c] ≠ .ok byte := by
  intro h
  unfold readPair at h
  split at h
  · rename_i n hn
    rw [unsigned?_one] at hn
    have hsize := utf8Size_of_lt (toNat_lt_of_digitValue? hn)
    omega
  · exact nomatch h

theorem Denotes.exists_pair (h : Denotes byte pair) : ∃ c d, pair = [c, d] ∧
    c.toNat < 128 ∧ d.toNat < 128 := by
  cases h with
  | digits h =>
    obtain ⟨hc, hd⟩ := digitValue?_eq_div h
    exact ⟨_, _, rfl, toNat_lt_of_digitValue? hc, toNat_lt_of_digitValue? hd⟩
  | plus h => exact ⟨_, _, rfl, by decide, toNat_lt_of_digitValue? (digitValue?_of_plus h)⟩

/-! ## Texts -/

theorem reads_nil : Reads bytes [] ↔ bytes = [] := by
  constructor
  · rintro ⟨pairs, hs, h⟩
    cases h with
    | nil => rfl
    | cons hpair _ =>
      obtain ⟨c, d, rfl, -⟩ := hpair.exists_pair
      exact nomatch hs
  · rintro rfl
    exact ⟨[], rfl, .nil⟩

theorem not_reads_one : ¬ Reads bytes [c] := by
  rintro ⟨pairs, hs, h⟩
  cases h with
  | nil => exact nomatch hs
  | cons hpair _ =>
    obtain ⟨c, d, rfl, -⟩ := hpair.exists_pair
    simp at hs

theorem reads_cons_cons : Reads bytes (c :: d :: s) ↔
    ∃ byte rest, Denotes byte [c, d] ∧ Reads rest s ∧ bytes = byte :: rest := by
  constructor
  · rintro ⟨pairs, hs, h⟩
    cases h with
    | nil => exact nomatch hs
    | cons hpair hpairs =>
      obtain ⟨c', d', rfl, -⟩ := hpair.exists_pair
      obtain ⟨rfl, rfl, rfl⟩ : c = c' ∧ d = d' ∧ s = List.flatten _ := by simpa using hs
      exact ⟨_, _, hpair, ⟨_, rfl, hpairs⟩, rfl⟩
  · rintro ⟨byte, rest, hpair, ⟨pairs, rfl, hpairs⟩, rfl⟩
    exact ⟨_, rfl, .cons hpair hpairs⟩

/-- The recursion of the reader: a character of two bytes by itself, or two of one byte each. -/
theorem readPairs_eq_ok_iff : readPairs s = .ok bytes ↔ Reads bytes s := by
  induction s using readPairs.induct generalizing bytes with
  | case1 =>
    rw [reads_nil, readPairs]
    exact ⟨fun h => (Except.ok.inj h).symm, fun h => h ▸ rfl⟩
  | case2 c hc =>
    rw [readPairs, if_pos hc]
    refine iff_of_false (fun h => ?_) not_reads_one
    obtain ⟨byte, hbyte, -⟩ := of_map_eq_ok h
    exact readPair_one hc hbyte
  | case3 c hc =>
    rw [readPairs, if_neg hc]
    exact iff_of_false (nomatch ·) not_reads_one
  | case4 c d s hc ih =>
    rw [readPairs, if_pos hc, reads_cons_cons]
    refine iff_of_false (fun h => ?_) ?_
    · obtain ⟨byte, hbyte, -⟩ := of_bind_eq_ok h
      exact readPair_one hc hbyte
    · rintro ⟨byte, rest, hpair, -⟩
      obtain ⟨c', d', heq, hlt, -⟩ := hpair.exists_pair
      obtain ⟨rfl, rfl⟩ : c = c' ∧ d = d' := by simpa using heq
      have := utf8Size_of_lt hlt
      omega
  | case5 c d s hc hsize ih =>
    rw [readPairs, if_neg hc, if_pos hsize, reads_cons_cons]
    constructor
    · intro h
      obtain ⟨byte, hbyte, h⟩ := of_bind_eq_ok h
      obtain ⟨rest, hrest, h⟩ := of_bind_eq_ok h
      exact ⟨byte, rest, readPair_eq_ok_iff.mp hbyte, ih.mp hrest, (Except.ok.inj h).symm⟩
    · rintro ⟨byte, rest, hpair, hrest, rfl⟩
      rw [readPair_eq_ok_iff.mpr hpair, ih.mpr hrest]
      rfl
  | case6 c d s hc hsize =>
    rw [readPairs, if_neg hc, if_neg hsize, reads_cons_cons]
    refine iff_of_false (nomatch ·) ?_
    rintro ⟨byte, rest, hpair, -⟩
    obtain ⟨c', d', heq, hlt, hlt'⟩ := hpair.exists_pair
    obtain ⟨rfl, rfl⟩ : c = c' ∧ d = d' := by simpa using heq
    exact hsize ⟨utf8Size_of_lt hlt, utf8Size_of_lt hlt'⟩

theorem Reads.utf8ByteSize_eq (h : Reads bytes s) :
    (String.ofList s).utf8ByteSize = 2 * bytes.length := by
  induction bytes generalizing s with
  | nil =>
    obtain ⟨pairs, rfl, h⟩ := h
    cases h
    rfl
  | cons byte bytes ih =>
    obtain ⟨pairs, rfl, h⟩ := h
    cases h with
    | cons hpair hpairs =>
      obtain ⟨c, d, rfl, hc, hd⟩ := hpair.exists_pair
      have hrest := ih ⟨_, rfl, hpairs⟩
      simp only [List.flatten_cons, List.cons_append, List.nil_append, String.ofList_cons,
        String.utf8ByteSize_append, String.utf8ByteSize_singleton, utf8Size_of_lt hc,
        utf8Size_of_lt hd, hrest, List.length_cons]
      omega

/-- **What is read**: texts made up of texts of the bytes. -/
theorem read_eq_ok_iff {s : String} : read s = .ok bytes ↔ Reads bytes s.toList := by
  unfold read
  split
  · rename_i hodd
    refine iff_of_false (nomatch ·) fun h => ?_
    have hlen := h.utf8ByteSize_eq
    rw [String.ofList_toList] at hlen
    omega
  · exact readPairs_eq_ok_iff

/-! ## Plus signs and blanks -/

theorem isBlank_of_digitValue? {n : ℕ} (h : digitValue? 16 c = some n) : isBlank c = false := by
  have hascii : ∀ k < 128, (digitValue? 16 (Char.ofNat k)).isSome →
      isBlank (Char.ofNat k) = false := by decide
  have hc := toNat_lt_of_digitValue? h
  rw [← Char.ofNat_toNat c] at h ⊢
  exact hascii _ hc (Option.isSome_of_eq_some h)

theorem ne_plus_of_digitValue? {n : ℕ} (h : digitValue? 16 c = some n) : c ≠ '+' := by
  rintro rfl
  rw [digitValue?_plus] at h
  exact nomatch h

theorem Denotes.not_blank (h : Denotes byte pair) : ∀ c ∈ pair, isBlank c = false := by
  cases h with
  | digits h =>
    obtain ⟨hc, hd⟩ := digitValue?_eq_div h
    simp [isBlank_of_digitValue? hc, isBlank_of_digitValue? hd]
  | plus h =>
    have hplus : isBlank '+' = false := by decide
    simp [hplus, isBlank_of_digitValue? (digitValue?_of_plus h)]

theorem Denotes.map_toLower_eq_iff (h : Denotes byte pair) :
    pair.map Char.toLower = byteText byte ↔ '+' ∉ pair := by
  cases h with
  | digits h =>
    obtain ⟨hc, hd⟩ := digitValue?_eq_div h
    refine iff_of_true h ?_
    simp [(ne_plus_of_digitValue? hc).symm, (ne_plus_of_digitValue? hd).symm]
  | plus h =>
    have hplus : '+'.toLower ≠ '0' := by decide
    refine iff_of_false (fun hpair => ?_) (by simp)
    rw [← h] at hpair
    exact hplus (List.cons.inj hpair).1

theorem Reads.not_blank (h : Reads bytes s) : ∀ c ∈ s, isBlank c = false := by
  obtain ⟨pairs, rfl, h⟩ := h
  induction h with
  | nil => simp
  | cons hpair _ ih =>
    rw [List.flatten_cons, List.forall_mem_append]
    exact ⟨hpair.not_blank, ih⟩

/-- **What is read is the text of the bytes**, in some case, if there is no plus sign in it. -/
theorem Reads.map_toLower_eq_iff (h : Reads bytes s) :
    s.map Char.toLower = text bytes ↔ '+' ∉ s := by
  obtain ⟨pairs, rfl, h⟩ := h
  induction h with
  | nil => simp [text]
  | @cons byte pair bytes pairs hpair _ ih =>
    have hlength : (pair.map Char.toLower).length = (byteText byte).length := by
      obtain ⟨c, d, rfl, -⟩ := hpair.exists_pair
      rfl
    rw [List.flatten_cons, List.map_append, List.mem_append, not_or, ← ih,
      ← hpair.map_toLower_eq_iff]
    constructor
    · intro h
      exact List.append_inj h hlength
    · rintro ⟨hpair, hrest⟩
      rw [hpair, hrest]
      rfl

/-- The text of bytes is read as these bytes, in whatever case. -/
theorem reads_of_map_toLower (h : s.map Char.toLower = text bytes) : Reads bytes s := by
  induction bytes generalizing s with
  | nil =>
    rw [List.map_eq_nil_iff.mp h]
    exact reads_nil.mpr rfl
  | cons byte bytes ih =>
    obtain ⟨c, s, rfl, hc, h⟩ := List.map_eq_cons_iff.mp h
    obtain ⟨d, s, rfl, hd, h⟩ := List.map_eq_cons_iff.mp h
    have hpair : [c.toLower, d.toLower] = byteText byte := by rw [byteText, hc, hd]
    exact reads_cons_cons.mpr ⟨byte, bytes, .digits hpair, ih h, rfl⟩

end Hex

/-! ## The built-in type -/

namespace Builtin

open Hex

variable {t : Builtin} {ctx : ValueContext} {s : String} {v : Value}

theorem validate_hexBinary_eq_ok_iff (ht : find? "hexBinary" = some t) :
    t.validate ctx s = .ok v ↔ ∃ bytes, v = .atom (.binary bytes) ∧
      Reads bytes (Spacing.collapse.normalize s).toList := by
  have hfind : find? "hexBinary" = some (atomic "hexBinary" "anySimpleType" .hex) := by decide
  obtain rfl := Option.some.inj (ht.symm.trans hfind)
  constructor
  · intro h
    obtain ⟨a, ha, rfl⟩ := of_map_eq_ok h
    obtain ⟨bytes, hbytes, rfl⟩ := of_map_eq_ok ha
    exact ⟨bytes, rfl, read_eq_ok_iff.mp (of_mapError_eq_ok hbytes)⟩
  · rintro ⟨bytes, rfl, h⟩
    change ((((Hex.read (Spacing.collapse.normalize s)).mapError _).map Atom.binary).map
      Value.atom) = _
    rw [read_eq_ok_iff.mpr h]
    rfl

/-- Collapsing leaves what is read as it is. -/
theorem collapse_of_reads {bytes : List UInt8} (h : Reads bytes s.toList) :
    Spacing.collapse.normalize s = s := by
  by_cases hs : s.toList = []
  · obtain rfl : s = "" := String.toList_inj.mp hs
    rfl
  · exact Spacing.normalize_of_isWord _ ⟨hs, h.not_blank⟩

/-- **Values of base 16.** The text of bytes, two digits for each, in whatever case, has these bytes
as its value. A literal is accepted if it is made up, without the white space around it, of the
digits of bytes, of which the first one may be a plus sign in place of a zero. So what is accepted
is a text of the value exactly if there is no plus sign in it. -/
theorem hexBinary_values (ht : find? "hexBinary" = some t) (ctx : ValueContext) :
    (∀ bytes s, s.toList.map Char.toLower = Hex.text bytes →
      t.validate ctx s = .ok (.atom (.binary bytes))) ∧
    (∀ s v, t.validate ctx s = .ok v ↔ ∃ bytes, v = .atom (.binary bytes) ∧
      Reads bytes (Spacing.collapse.normalize s).toList) ∧
    ∀ s bytes, t.validate ctx s = .ok (.atom (.binary bytes)) →
      ((Spacing.collapse.normalize s).toList.map Char.toLower = Hex.text bytes ↔
        '+' ∉ (Spacing.collapse.normalize s).toList) := by
  refine ⟨fun bytes s h => ?_, fun s v => validate_hexBinary_eq_ok_iff ht, fun s bytes h => ?_⟩
  · have hreads := reads_of_map_toLower h
    refine (validate_hexBinary_eq_ok_iff ht).mpr ⟨bytes, rfl, ?_⟩
    rwa [collapse_of_reads hreads]
  · obtain ⟨bytes', hv, hreads⟩ := (validate_hexBinary_eq_ok_iff ht).mp h
    obtain rfl : bytes = bytes' := by simpa using hv
    exact hreads.map_toLower_eq_iff

/-- Two bytes in mixed case. -/
theorem hexBinary_values_mixedCase : ∃ t, find? "hexBinary" = some t ∧
    t.validate {} "0aFf" = .ok (.atom (.binary [10, 255])) :=
  ⟨_, rfl, (hexBinary_values rfl {}).1 [10, 255] "0aFf" (by decide)⟩

/-- A plus sign and a digit have a value that is written otherwise. -/
theorem exists_hexBinary_plus : ∃ t, find? "hexBinary" = some t ∧
    t.validate {} "+f" = .ok (.atom (.binary [15])) ∧
    Spacing.collapse.normalize "+f" = "+f" ∧ "+f".toList.map Char.toLower ≠ Hex.text [15] :=
  ⟨_, rfl, eq_ok_of_toOption (by decide), by decide, by decide⟩

end Builtin

end MarkupGrammar
