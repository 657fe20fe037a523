import Mathlib.Algebra.Ring.Nat
import Mathlib.Data.List.Basic
import Mathlib.Tactic.SplitIfs
import Workflow.Digest.Framing

/-!
# Framed fields and digests

The length in front of a field says where the field ends. A reader that takes one field after the
other off the front of some bytes finds the fields of a framed sequence again, and it can read
nothing but framed sequences. So the bytes that a hasher has been fed belong to one sequence of
fields, whatever the fields look like. A digest is written in 64 lower-case hexadecimal digits, so
that it can stand in the name of a file.
-/
namespace Workflow

/-! ## Bytes of texts -/

theorem byteArray_toList_loop (bytes : ByteArray) (i : Nat) (seen : List UInt8) :
    ByteArray.toList.loop bytes i seen = seen.reverse ++ bytes.data.toList.drop i := by
  induction hn : bytes.size - i generalizing i seen with
  | zero =>
    have hend : bytes.data.toList.drop i = [] := by
      rw [List.drop_eq_nil_iff, Array.length_toList]
      change bytes.size ≤ i
      omega
    rw [ByteArray.toList.loop.eq_1, if_neg (by omega), hend, List.append_nil]
  | succ n ih =>
    have hi : i < bytes.data.toList.length := by
      rw [Array.length_toList]
      change i < bytes.size
      omega
    rw [ByteArray.toList.loop.eq_1, if_pos (by omega), ih _ _ (by omega),
      List.drop_eq_getElem_cons hi]
    have hget : bytes.get! i = bytes.data.toList[i] := by
      rw [Array.length_toList] at hi
      rw [Array.getElem_toList]
      exact getElem!_pos bytes.data i hi
    rw [hget]
    simp

theorem textBytes_eq (s : String) : textBytes s = s.toByteArray.data.toList := by
  rw [textBytes, ByteArray.toList, byteArray_toList_loop, String.toUTF8_eq_toByteArray]
  rfl

theorem textBytes_injective : Function.Injective textBytes := by
  intro s t h
  rw [textBytes_eq, textBytes_eq] at h
  exact String.toByteArray_inj.mp (ByteArray.ext (Array.toList_inj.mp h))

@[simp] theorem length_textBytes (s : String) : (textBytes s).length = s.utf8ByteSize := by
  rw [textBytes_eq, Array.length_toList]
  exact String.size_toByteArray

/-! ## Lengths -/

/-- The number that some bytes stand for, the lowest first. -/
def ofLittleEndian : List UInt8 → Nat
  | [] => 0
  | byte :: rest => byte.toNat + 256 * ofLittleEndian rest

@[simp] theorem length_littleEndian (count n : Nat) : (littleEndian count n).length = count := by
  induction count generalizing n with
  | zero => rfl
  | succ count ih => rw [littleEndian, List.length_cons, ih]

theorem ofLittleEndian_lt (bytes : List UInt8) : ofLittleEndian bytes < 256 ^ bytes.length := by
  induction bytes with
  | nil => decide
  | cons byte rest ih =>
    have hbyte := byte.toNat_lt
    rw [ofLittleEndian, List.length_cons, Nat.pow_succ]
    omega

theorem ofLittleEndian_littleEndian (count n : Nat) :
    ofLittleEndian (littleEndian count n) = n % 256 ^ count := by
  induction count generalizing n with
  | zero => rw [littleEndian, ofLittleEndian, Nat.pow_zero, Nat.mod_one]
  | succ count ih =>
    have hbyte : (UInt8.ofNat (n % 256)).toNat = n % 256 := by simp
    rw [littleEndian, ofLittleEndian, ih, hbyte, Nat.pow_succ', Nat.mod_mul]

theorem littleEndian_ofLittleEndian (bytes : List UInt8) :
    littleEndian bytes.length (ofLittleEndian bytes) = bytes := by
  induction bytes with
  | nil => rfl
  | cons byte rest ih =>
    have hbyte := byte.toNat_lt
    have hlow : (byte.toNat + 256 * ofLittleEndian rest) % 256 = byte.toNat := by omega
    have hhigh : (byte.toNat + 256 * ofLittleEndian rest) / 256 = ofLittleEndian rest := by omega
    rw [ofLittleEndian, List.length_cons, littleEndian, hlow, hhigh, ih, UInt8.ofNat_toNat]

/-! ## One field -/

/-- Take a field off the front of some bytes. -/
def readFrame? (bytes : List UInt8) : Option (List UInt8 × List UInt8) :=
  let length := ofLittleEndian (bytes.take 8)
  let rest := bytes.drop 8
  if 8 ≤ bytes.length ∧ length ≤ rest.length then some (rest.take length, rest.drop length)
  else none

theorem readFrame?_frame {field : List UInt8} (hlt : field.length < 2 ^ 64) (rest : List UInt8) :
    readFrame? (frame field ++ rest) = some (field, rest) := by
  have hlength : ofLittleEndian (littleEndian 8 field.length) = field.length := by
    rw [ofLittleEndian_littleEndian, Nat.mod_eq_of_lt (by omega)]
  have htake : (frame field ++ rest).take 8 = littleEndian 8 field.length := by
    rw [frame, List.append_assoc, List.take_left' (length_littleEndian 8 _)]
  have hdrop : (frame field ++ rest).drop 8 = field ++ rest := by
    rw [frame, List.append_assoc, List.drop_left' (length_littleEndian 8 _)]
  have hroom : 8 ≤ (frame field ++ rest).length ∧ field.length ≤ (field ++ rest).length := by
    simp only [frame, List.length_append, length_littleEndian]
    omega
  simp only [readFrame?, htake, hdrop, hlength]
  rw [if_pos hroom, List.take_left, List.drop_left]

theorem eq_of_readFrame? {bytes field rest : List UInt8} (h : readFrame? bytes = some (field, rest)) :
    bytes = frame field ++ rest ∧ field.length < 2 ^ 64 := by
  simp only [readFrame?] at h
  split_ifs at h with hroom
  obtain ⟨hbytes, hfits⟩ := hroom
  obtain ⟨rfl, rfl⟩ := Prod.mk.inj (Option.some.inj h)
  have hfront : (bytes.take 8).length = 8 := List.length_take_of_le hbytes
  have hlength : ((bytes.drop 8).take (ofLittleEndian (bytes.take 8))).length =
      ofLittleEndian (bytes.take 8) := List.length_take_of_le hfits
  have hcode : littleEndian 8 (ofLittleEndian (bytes.take 8)) = bytes.take 8 := by
    have := littleEndian_ofLittleEndian (bytes.take 8)
    rwa [hfront] at this
  constructor
  · rw [frame, hlength, hcode, List.append_assoc, List.take_append_drop, List.take_append_drop]
  · have hlt := ofLittleEndian_lt (bytes.take 8)
    rw [hfront] at hlt
    omega

theorem length_lt_of_readFrame? {bytes field rest : List UInt8}
    (h : readFrame? bytes = some (field, rest)) : rest.length < bytes.length := by
  rw [(eq_of_readFrame? h).1, frame]
  simp only [List.length_append, length_littleEndian]
  omega

/-! ## A sequence of fields -/

/-- Take fields off the front of some bytes until nothing is left. -/
def readFrames? (bytes : List UInt8) : Option (List (List UInt8)) :=
  if bytes = [] then some []
  else
    match h : readFrame? bytes with
    | none => none
    | some (field, rest) =>
      have := length_lt_of_readFrame? h
      (readFrames? rest).map (field :: ·)
  termination_by bytes.length

theorem readFrames?_framed {fields : List (List UInt8)}
    (hlt : ∀ field ∈ fields, field.length < 2 ^ 64) : readFrames? (framed fields) = some fields := by
  induction fields with
  | nil =>
    rw [readFrames?]
    rfl
  | cons field rest ih =>
    obtain ⟨hfield, hrest⟩ := List.forall_mem_cons.mp hlt
    have hread : readFrame? (framed (field :: rest)) = some (field, framed rest) :=
      readFrame?_frame hfield (framed rest)
    have hne : framed (field :: rest) ≠ [] := nofun
    rw [readFrames?, if_neg hne]
    split
    case h_1 hnone => cases hread.symm.trans hnone
    case h_2 field' rest' hsome =>
      obtain ⟨rfl, rfl⟩ := Prod.mk.inj (Option.some.inj (hread.symm.trans hsome))
      rw [ih hrest, Option.map_some]

/-- Exactly the framed sequences of fields can be read. -/
theorem readFrames?_eq_some_iff {bytes : List UInt8} {fields : List (List UInt8)} :
    readFrames? bytes = some fields ↔
      framed fields = bytes ∧ ∀ field ∈ fields, field.length < 2 ^ 64 := by
  constructor
  · intro h
    fun_induction readFrames? bytes generalizing fields with
    | case1 =>
      cases h
      exact ⟨rfl, nofun⟩
    | case2 => cases h
    | case3 bytes _ field rest hread _ ih =>
      obtain ⟨others, hothers, rfl⟩ := Option.map_eq_some_iff.mp h
      obtain ⟨rfl, hlt⟩ := ih hothers
      obtain ⟨rfl, hfield⟩ := eq_of_readFrame? hread
      exact ⟨rfl, List.forall_mem_cons.mpr ⟨hfield, hlt⟩⟩
  · rintro ⟨rfl, hlt⟩
    exact readFrames?_framed hlt

theorem framed_injective {fields fields' : List (List UInt8)}
    (hlt : ∀ field ∈ fields, field.length < 2 ^ 64)
    (hlt' : ∀ field ∈ fields', field.length < 2 ^ 64) (h : framed fields = framed fields') :
    fields = fields' := by
  have hread : readFrames? (framed fields') = some fields := readFrames?_eq_some_iff.mpr ⟨h, hlt⟩
  have hread' : readFrames? (framed fields') = some fields' :=
    readFrames?_eq_some_iff.mpr ⟨rfl, hlt'⟩
  exact Option.some.inj (hread.symm.trans hread')

theorem framed_textBytes_inj {texts texts' : List String}
    (hlt : ∀ s ∈ texts, s.utf8ByteSize < 2 ^ 64) (hlt' : ∀ s ∈ texts', s.utf8ByteSize < 2 ^ 64) :
    framed (texts.map textBytes) = framed (texts'.map textBytes) ↔ texts = texts' := by
  have hbytes {texts : List String} (hlt : ∀ s ∈ texts, s.utf8ByteSize < 2 ^ 64) :
      ∀ field ∈ texts.map textBytes, field.length < 2 ^ 64 := by
    intro field hfield
    obtain ⟨s, hs, rfl⟩ := List.mem_map.mp hfield
    rw [length_textBytes]
    exact hlt s hs
  constructor
  · intro h
    exact List.map_injective_iff.mpr textBytes_injective
      (framed_injective (hbytes hlt) (hbytes hlt') h)
  · rintro rfl
    rfl

/-! ## What a hasher has been fed -/

namespace Hasher

theorem fed_fields (fields : List (List UInt8)) (h : Hasher) :
    (fields.foldl field h).fed = h.fed ++ framed fields := by
  induction fields generalizing h with
  | nil => exact (List.append_nil h.fed).symm
  | cons bytes rest ih =>
    rw [List.foldl_cons, ih]
    simp only [field, framed, frame, List.flatMap_cons, List.append_assoc]

theorem fed_texts (texts : List String) (h : Hasher) :
    (texts.foldl text h).fed = h.fed ++ framed (texts.map textBytes) := by
  rw [← fed_fields, List.foldl_map]
  rfl

theorem digest_texts (texts : List String) :
    (texts.foldl text empty).digest = fieldsDigest texts := by
  rw [digest, fed_texts]
  rfl

/-- The key of a submission is the digest of its four parts, fed one after the other. -/
theorem digest_submission (experiment runName manifest : String) (params : Dict Scalar) :
    ((((empty.text experiment).text runName).text manifest).document (encodeParams params)).digest =
      idempotencyKey experiment runName manifest params :=
  digest_texts [experiment, runName, manifest, Json.compact (encodeParams params)]

/-- What a hasher is fed belongs to one sequence of fields, however many they are and whatever bytes
they consist of, and to one sequence of texts. -/
theorem fed_inj (h : Hasher) :
    (∀ fields fields' : List (List UInt8), (∀ bytes ∈ fields, bytes.length < 2 ^ 64) →
      (∀ bytes ∈ fields', bytes.length < 2 ^ 64) →
      ((fields.foldl field h).fed = (fields'.foldl field h).fed ↔ fields = fields')) ∧
    ∀ texts texts' : List String, (∀ s ∈ texts, s.utf8ByteSize < 2 ^ 64) →
      (∀ s ∈ texts', s.utf8ByteSize < 2 ^ 64) →
      ((texts.foldl text h).fed = (texts'.foldl text h).fed ↔ texts = texts') := by
  constructor
  · intro fields fields' hlt hlt'
    rw [fed_fields, fed_fields, List.append_cancel_left_eq]
    exact ⟨framed_injective hlt hlt', congrArg framed⟩
  · intro texts texts' hlt hlt'
    rw [fed_texts, fed_texts, List.append_cancel_left_eq, framed_textBytes_inj hlt hlt']

/-- Letters that move from one text to the next, and a text that looks like a length followed by the
field. -/
theorem fed_apart :
    (∀ s ∈ ["ab", "c", "a", "bc", "\x01\x00\x00\x00\x00\x00\x00\x00a"], s.utf8ByteSize < 2 ^ 64) ∧
    (["ab", "c"].foldl text empty).fed ≠ (["a", "bc"].foldl text empty).fed ∧
    (["a", "\x01\x00\x00\x00\x00\x00\x00\x00a"].foldl text empty).fed ≠
      (["a", "a"].foldl text empty).fed := by
  have hlt : ∀ s ∈ ["ab", "c", "a", "bc", "\x01\x00\x00\x00\x00\x00\x00\x00a"],
      s.utf8ByteSize < 2 ^ 64 := by
    decide
  refine ⟨hlt, fun h => ?_, fun h => ?_⟩
  · have := ((fed_inj empty).2 ["ab", "c"] ["a", "bc"] (by decide) (by decide)).mp h
    exact absurd this (by decide)
  · have := ((fed_inj empty).2 _ ["a", "a"] (by decide) (by decide)).mp h
    exact absurd this (by decide)

end Hasher

/-! ## Hexadecimal digits -/

theorem toDigits_mem_cases {n : Nat} {c : Char} (h : c ∈ Nat.toDigits 16 n) :
    ∃ d < 16, c = Nat.digitChar d := by
  induction n using Nat.strongRecOn with
  | ind n ih =>
    rw [Nat.toDigits_eq_if (by decide)] at h
    split_ifs at h with hn
    · exact ⟨n, hn, List.mem_singleton.mp h⟩
    · rcases List.mem_append.mp h with h | h
      · exact ih (n / 16) (Nat.div_lt_self (by omega) (by decide)) h
      · exact ⟨n % 16, Nat.mod_lt n (by decide), List.mem_singleton.mp h⟩

theorem hexPadded_mem_cases {width n : Nat} {c : Char} (h : c ∈ (hexPadded width n).toList) :
    ∃ d < 16, c = Nat.digitChar d := by
  rw [hexPadded, String.toList_ofList] at h
  rcases List.mem_append.mp h with h | h
  · exact ⟨0, by decide, List.eq_of_mem_replicate h⟩
  · exact toDigits_mem_cases h

theorem length_hexPadded {width n : Nat} (hwidth : 0 < width) (h : n < 16 ^ width) :
    (hexPadded width n).toList.length = width := by
  have hdigits := (Nat.length_toDigits_le_iff (by decide) hwidth).mpr h
  rw [hexPadded, String.toList_ofList, List.length_append, List.length_replicate]
  omega

namespace Blake3

theorem hexDigest_mem_cases {bytes : List UInt8} {c : Char} (h : c ∈ (hexDigest bytes).toList) :
    ∃ d < 16, c = Nat.digitChar d := by
  rw [hexDigest, String.toList_join, List.mem_flatMap] at h
  obtain ⟨text, htext, hc⟩ := h
  obtain ⟨w, -, rfl⟩ := List.mem_map.mp htext
  rw [wordText, String.toList_join, List.mem_flatMap] at hc
  obtain ⟨byte, hbyte, hc⟩ := hc
  obtain ⟨n, -, rfl⟩ := List.mem_map.mp hbyte
  exact hexPadded_mem_cases hc

theorem isAlphanum_of_mem_hexDigest {bytes : List UInt8} {c : Char}
    (h : c ∈ (hexDigest bytes).toList) : c.isAlphanum = true := by
  have hdigit : ∀ d < 16, (Nat.digitChar d).isAlphanum = true := by decide
  obtain ⟨d, hd, rfl⟩ := hexDigest_mem_cases h
  exact hdigit d hd

theorem length_wordText (w : Word) : (wordText w).toList.length = 8 := by
  have hbyte (n : Nat) : (hexPadded 2 (n % 256)).toList.length = 2 :=
    length_hexPadded (by decide) (Nat.mod_lt _ (by decide))
  simp only [wordText, String.toList_join, List.map_cons, List.map_nil, List.flatMap_cons,
    List.flatMap_nil, List.length_append, hbyte, List.length_nil]

theorem length_hexDigest (bytes : List UInt8) : (hexDigest bytes).toList.length = 64 := by
  have hwords (words : List Word) :
      (String.join (words.map wordText)).toList.length = 8 * words.length := by
    induction words with
    | nil => rfl
    | cons w words ih =>
      rw [String.toList_join] at ih ⊢
      rw [List.map_cons, List.flatMap_cons, List.length_append, ih, length_wordText,
        List.length_cons]
      omega
  rw [hexDigest, hwords]
  simp

theorem hexDigest_ne_empty (bytes : List UInt8) : hexDigest bytes ≠ "" := by
  intro h
  have hlength := length_hexDigest bytes
  rw [h] at hlength
  exact absurd hlength (by decide)

end Blake3
end Workflow
