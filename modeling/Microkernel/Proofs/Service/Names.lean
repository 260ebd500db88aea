import Microkernel.Proofs.Service.Arguments

/-!
# Service names and the words that stand for them

A name is a text, on the wire it is a long word. The two are in bijection (`names_are_words`): a word that is read as a name is the word
that the name is written as, and the other way round. The accepted words are told by their bytes and the accepted texts by their
encoding. So what a word reaches in a registry is decided by the changes under that word's name alone.
-/

namespace Microkernel

open Wire (Bytes)

namespace Wire

/-- Zeros stand for zero. -/
theorem ofLittleEndian_zeros (n : Nat) : ofLittleEndian (zeros n) = 0 := by
  induction n with
  | zero => rfl
  | succ n ih =>
    have hzeros : zeros (n + 1) = 0 :: zeros n := List.replicate_succ
    rw [hzeros, ofLittleEndian, ih]
    rfl

/-- Zeros behind bytes do not change the number. -/
theorem ofLittleEndian_append_zeros (bytes : Bytes) (n : Nat) : ofLittleEndian (bytes ++ zeros n) = ofLittleEndian bytes := by
  induction bytes with
  | nil => exact ofLittleEndian_zeros n
  | cons b rest ih => rw [List.cons_append, ofLittleEndian, ofLittleEndian, ih]

/-- Bytes are the lowest bytes of the number that they stand for; above them are zeros. -/
theorem littleEndian_ofLittleEndian_of_le {width : Nat} {bytes : Bytes} (h : bytes.length ≤ width) :
    littleEndian width (ofLittleEndian bytes) = padTo width bytes := by
  have hlength : (padTo width bytes).length = width := by
    rw [padTo, List.length_append, length_zeros]
    omega
  have hvalue : ofLittleEndian (padTo width bytes) = ofLittleEndian bytes := ofLittleEndian_append_zeros _ _
  have hbytes := littleEndian_ofLittleEndian (padTo width bytes)
  rwa [hlength, hvalue] at hbytes

/-- Bytes of which only zeros stand behind the first zero. -/
theorem eq_padTo_takeWhile {bytes : Bytes} (h : ¬ (bytes.drop (bytes.takeWhile (· ≠ 0)).length).any (· ≠ 0)) :
    bytes = padTo bytes.length (bytes.takeWhile (· ≠ 0)) := by
  generalize hbefore : bytes.takeWhile (· ≠ 0) = before at h ⊢
  have htake : before = bytes.take before.length := List.prefix_iff_eq_take.1 (hbefore ▸ List.takeWhile_prefix _)
  have hdrop : bytes.drop before.length = zeros (bytes.length - before.length) := by
    refine List.eq_replicate_iff.2 ⟨List.length_drop, fun b hb => ?_⟩
    by_contra hb0
    exact h (List.any_eq_true.2 ⟨b, hb, decide_eq_true hb0⟩)
  calc bytes = bytes.take before.length ++ bytes.drop before.length := (List.take_append_drop _ _).symm
    _ = padTo bytes.length before := by rw [← htake, hdrop, padTo]

end Wire

/-! ## Texts and their bytes -/

/-- The encoding of a text. -/
def utf8 (text : String) : Bytes := text.toUTF8.data.toList

/-- A row of bytes that can be a name. -/
def IsNameBytes (bytes : Bytes) : Prop :=
  1 ≤ bytes.length ∧ bytes.length ≤ maxNameLength ∧ ∀ b ∈ bytes, 1 ≤ b.toNat ∧ b.toNat ≤ 0x7F

section

variable {text : String} {bytes : Bytes} {c : Char}

/-- The encoding of a text is that of its characters in a row. -/
theorem utf8_eq (text : String) : utf8 text = text.toList.flatMap String.utf8EncodeChar := by
  rw [utf8, String.toUTF8_eq_toByteArray, ← String.utf8Encode_toList, List.utf8Encode, List.toList_data_toByteArray]

/-- Texts with one encoding are the same. -/
theorem utf8_inj {text' : String} (h : utf8 text = utf8 text') : text = text' := by
  rw [utf8, utf8, Array.toList_inj, String.toUTF8_eq_toByteArray, String.toUTF8_eq_toByteArray] at h
  exact String.toByteArray_inj.1 (ByteArray.ext h)

/-- An ASCII character is encoded as its own byte. -/
theorem utf8EncodeChar_of_ascii (h : c.toNat ≤ 0x7F) : String.utf8EncodeChar c = [UInt8.ofNat c.toNat] := if_pos h

/-- Only an ASCII character is encoded by ASCII bytes. -/
theorem ascii_of_utf8EncodeChar (h : ∀ b ∈ String.utf8EncodeChar c, b.toNat ≤ 0x7F) : c.toNat ≤ 0x7F := by
  by_contra hc
  -- Whatever the length of the encoding, its last byte is a continuation byte.
  have hlast : UInt8.ofNat (c.toNat % 0x40 + 0x80) ∈ String.utf8EncodeChar c := by
    have hc' : ¬ c.val.toNat ≤ 0x7F := hc
    rw [String.utf8EncodeChar, if_neg hc']
    rw [← Char.toNat_val]
    split_ifs <;> simp
  have hle := h _ hlast
  rw [UInt8.toNat_ofNat'] at hle
  omega

/-- The encoding of an ASCII text is its characters as bytes. -/
theorem utf8_of_ascii (h : ∀ c ∈ text.toList, c.toNat ≤ 0x7F) : utf8 text = text.toList.map fun c => UInt8.ofNat c.toNat := by
  rw [utf8_eq, List.map_eq_flatMap]
  exact List.flatMap_congr fun c hc => utf8EncodeChar_of_ascii (h c hc)

/-- A service name has one to eight characters, all of them ASCII and none of them zero. -/
theorem isServiceName_iff_chars : isServiceName text = true ↔
    1 ≤ text.toList.length ∧ text.toList.length ≤ maxNameLength ∧ ∀ c ∈ text.toList, 1 ≤ c.toNat ∧ c.toNat ≤ 0x7F := by
  have hnonempty : (!text.toList.isEmpty) = true ↔ 1 ≤ text.toList.length := by
    rw [Bool.not_eq_true', List.isEmpty_eq_false_iff]
    exact List.length_pos_iff.symm
  rw [isServiceName]
  simp only [Bool.and_eq_true, hnonempty, decide_eq_true_eq, List.all_eq_true, and_assoc]
  exact and_congr_right' (and_congr_right' (forall₂_congr fun c _ => and_congr_right' Nat.lt_succ_iff))

/-- A service name is ASCII. -/
theorem ascii_of_isServiceName (h : isServiceName text = true) : ∀ c ∈ text.toList, c.toNat ≤ 0x7F :=
  fun c hc => ((isServiceName_iff_chars.1 h).2.2 c hc).2

/-- A text is a service name just if its encoding is a row of name bytes. -/
theorem isServiceName_iff : isServiceName text = true ↔ IsNameBytes (utf8 text) := by
  rw [isServiceName_iff_chars, IsNameBytes]
  constructor
  · rintro ⟨hpos, hle, hchars⟩
    rw [utf8_of_ascii fun c hc => (hchars c hc).2, List.length_map]
    refine ⟨hpos, hle, fun b hb => ?_⟩
    obtain ⟨c, hc, rfl⟩ := List.mem_map.1 hb
    have hbounds := hchars c hc
    rw [UInt8.toNat_ofNat']
    omega
  · rintro ⟨hpos, hle, hbytes⟩
    have hascii : ∀ c ∈ text.toList, c.toNat ≤ 0x7F := fun c hc => ascii_of_utf8EncodeChar fun b hb => by
      refine (hbytes b ?_).2
      rw [utf8_eq]
      exact List.mem_flatMap_of_mem hc hb
    rw [utf8_of_ascii hascii] at hpos hle hbytes
    rw [List.length_map] at hpos hle
    refine ⟨hpos, hle, fun c hc => ⟨?_, hascii c hc⟩⟩
    have hbound := (hbytes _ (List.mem_map_of_mem hc)).1
    rw [UInt8.toNat_ofNat'] at hbound
    omega

end

namespace ServiceName

/-- The answer to a text that is read off the encoding of a name: the name, or that there is none. -/
def ofUtf8 (bytes : Bytes) : Except RegistryError ServiceName :=
  match String.fromUTF8? ⟨bytes.toArray⟩ with
  | some text => ofString text
  | none => .error .invalidName

/-- The name that a word stands for, if the bytes before the first zero are decoded. -/
def decodeWord (word : Nat) : Except RegistryError ServiceName :=
  let bytes := Wire.word64 word
  let name := bytes.takeWhile (· ≠ 0)
  if (bytes.drop name.length).any (· ≠ 0) then .error .invalidName else ofUtf8 name

section

variable {text : String} {bytes : Bytes} {n : ServiceName} {word : Nat}

/-- A text is read as the name that has it. -/
theorem ofString_eq_ok_iff : ofString text = .ok n ↔ n.text = text := by
  rw [ofString]
  constructor
  · intro h
    split at h
    · cases h
      rfl
    · cases h
  · rintro rfl
    exact dif_pos n.valid

/-- Names with one text are the same. -/
theorem text_inj {n' : ServiceName} : n.text = n'.text ↔ n = n' := by
  cases n
  cases n'
  rw [mk.injEq]

/-- A text whose encoding is no row of name bytes is refused. -/
theorem ofString_eq_error (h : ¬ IsNameBytes (utf8 text)) : ofString text = .error .invalidName :=
  dif_neg (mt isServiceName_iff.1 h)

/-- A name is as long as its encoding, which is all ASCII. -/
theorem isNameBytes_utf8 (n : ServiceName) : IsNameBytes (utf8 n.text) := isServiceName_iff.1 n.valid

/-- The characters of a text made of bytes are the bytes. -/
theorem toList_textOfBytes (bytes : Bytes) : (textOfBytes bytes).toList = bytes.map fun b => Char.ofNat b.toNat :=
  String.toList_ofList

/-- The character of a byte has its number. -/
theorem toNat_charOfByte (b : UInt8) : (Char.ofNat b.toNat).toNat = b.toNat := by
  have hb := b.toNat_lt
  have hvalid : b.toNat.isValidChar := .inl (by omega)
  rw [Char.ofNat, dif_pos hvalid]
  rfl

/-- A text made of bytes is a service name just if they are a row of name bytes. -/
theorem isServiceName_textOfBytes_iff : isServiceName (textOfBytes bytes) = true ↔ IsNameBytes bytes := by
  rw [isServiceName_iff_chars, toList_textOfBytes, List.length_map, List.forall_mem_map]
  simp only [toNat_charOfByte]
  rfl

/-- A row of ASCII bytes encodes the text of its characters. -/
theorem utf8_textOfBytes (h : IsNameBytes bytes) : utf8 (textOfBytes bytes) = bytes := by
  rw [utf8_of_ascii (ascii_of_isServiceName (isServiceName_textOfBytes_iff.2 h)), toList_textOfBytes, List.map_map]
  refine (List.map_congr_left fun b _ => ?_).trans (List.map_id _)
  rw [Function.comp_apply, toNat_charOfByte, UInt8.ofNat_toNat]
  rfl

/-- Bytes are decoded as a text just if they are its encoding. -/
theorem fromUTF8?_eq_some_iff : String.fromUTF8? ⟨bytes.toArray⟩ = some text ↔ utf8 text = bytes := by
  constructor
  · intro h
    rw [String.fromUTF8?] at h
    split at h
    · cases h
      rfl
    · cases h
  · rintro rfl
    have harray : (⟨(utf8 text).toArray⟩ : ByteArray) = text.toByteArray := by
      rw [utf8, String.toUTF8_eq_toByteArray, Array.toArray_toList]
    rw [harray]
    exact dif_pos text.isValidUTF8

/-- It makes no difference whether the bytes are decoded or taken for ASCII characters. -/
theorem ofUtf8_eq (bytes : Bytes) : ofUtf8 bytes = ofString (textOfBytes bytes) := by
  by_cases h : IsNameBytes bytes
  · rw [ofUtf8, fromUTF8?_eq_some_iff.2 (utf8_textOfBytes h)]
  · have hnone : ofString (textOfBytes bytes) = .error .invalidName := dif_neg (mt isServiceName_textOfBytes_iff.1 h)
    rw [hnone, ofUtf8]
    split
    · next text htext => exact ofString_eq_error (by rwa [fromUTF8?_eq_some_iff.1 htext])
    · rfl

/-- Decoding the bytes of a word and reading them one by one come to the same. -/
theorem decodeWord_eq (word : Nat) : decodeWord word = ofWord word := by
  rw [decodeWord, ofWord, ofUtf8_eq]

/-- What stands before the first zero, where only zeros follow. -/
theorem takeWhile_padTo (h : IsNameBytes bytes) : (Wire.padTo 8 bytes).takeWhile (· ≠ 0) = bytes := by
  have hnonzero : ∀ b ∈ bytes, decide (b ≠ 0) = true := by
    intro b hb
    obtain ⟨hpositive, -⟩ := h.2.2 b hb
    refine decide_eq_true ?_
    rintro rfl
    cases hpositive
  rw [Wire.padTo, List.takeWhile_append_of_pos hnonzero, Wire.zeros, List.takeWhile_replicate, if_neg (by decide), List.append_nil]

/-- A word is read as the name whose encoding, filled up with zeros, are its bytes. -/
theorem ofWord_eq_ok_iff : ofWord word = .ok n ↔ Wire.word64 word = Wire.padTo 8 (utf8 n.text) := by
  constructor
  · intro h
    rw [ofWord] at h
    split at h
    · cases h
    · next hzeros =>
      have htext := ofString_eq_ok_iff.1 h
      have hname : IsNameBytes ((Wire.word64 word).takeWhile (· ≠ 0)) := isServiceName_textOfBytes_iff.1 (htext ▸ n.valid)
      have hbytes := Wire.eq_padTo_takeWhile hzeros
      rwa [htext, utf8_textOfBytes hname]
  · intro h
    have hname := isNameBytes_utf8 n
    have hzeros : (Wire.zeros (8 - (utf8 n.text).length)).any (· ≠ 0) = false := by
      simp [Wire.zeros]
    rw [ofWord, h, takeWhile_padTo hname, Wire.padTo, List.drop_left, hzeros]
    exact ofString_eq_ok_iff.2 (utf8_inj (utf8_textOfBytes hname)).symm

/-- The word of a name is its encoding in little-endian order. -/
theorem toWord_eq (n : ServiceName) : n.toWord = Wire.ofLittleEndian (utf8 n.text) := by
  rw [toWord, utf8_of_ascii (ascii_of_isServiceName n.valid)]

/-- The word of a name is read as the name. -/
theorem ofWord_toWord (n : ServiceName) : ofWord n.toWord = .ok n := by
  rw [ofWord_eq_ok_iff, toWord_eq]
  exact Wire.littleEndian_ofLittleEndian_of_le (isNameBytes_utf8 n).2.1

/-- The word of the name that is read off a word is that word, cut to its width. -/
theorem toWord_of_ofWord (h : ofWord word = .ok n) : n.toWord = word % wordLimit := by
  rw [ofWord_eq_ok_iff] at h
  rw [toWord_eq, ← Wire.ofLittleEndian_append_zeros _ (8 - (utf8 n.text).length), ← Wire.padTo, ← h]
  exact Wire.ofLittleEndian_littleEndian 8 word

/-- Names with one word are the same. -/
theorem toWord_inj {n' : ServiceName} : n.toWord = n'.toWord ↔ n = n' := by
  refine ⟨fun h => ?_, fun h => h ▸ rfl⟩
  have hsame := ofWord_toWord n
  rw [h, ofWord_toWord] at hsame
  exact (Except.ok.inj hsame).symm

/-- The word of a name fits a word. -/
theorem toWord_lt (n : ServiceName) : n.toWord < wordLimit := by
  rw [toWord_of_ofWord (ofWord_toWord n)]
  exact Nat.mod_lt _ (by decide)

end

end ServiceName

/-! ## What a word reaches -/

namespace Registry

/-- A change of what serves the names. One that is refused changes nothing. -/
inductive Change
  | bind (name : ServiceName) (port : RecordId)
  | unbind (name : ServiceName)
  | clear

/-- The registry after a change. -/
def apply (r : Registry) : Change → Registry
  | .bind name port => (r.bind name port).toOption.getD r
  | .unbind name => (r.unbind name).toOption.getD r
  | .clear => { r with services := {} }

namespace Change

/-- The change is one under the name that the word stands for, or one under all names. -/
def Concerns (word : Nat) : Change → Prop
  | bind name _ => word = name.toWord
  | unbind name => word = name.toWord
  | clear => True

instance (word : Nat) : DecidablePred (Concerns word)
  | bind name _ => inferInstanceAs (Decidable (word = name.toWord))
  | unbind name => inferInstanceAs (Decidable (word = name.toWord))
  | clear => isTrue trivial

/-- Who serves a name after a change that concerns it: a name that is taken stays with the port that has it. -/
def on (held : Option RecordId) : Change → Option RecordId
  | bind _ port => some (held.getD port)
  | unbind _ => none
  | clear => none

end Change

/-- A name that is bound serves whom it served already, or the new port. -/
theorem get?_apply_bind (r : Registry) (name n : ServiceName) (port : RecordId) :
    (r.apply (.bind name port)).get? n = if n = name then some ((r.get? n).getD port) else r.get? n := by
  rw [apply, bind, Std.TreeMap.contains_eq_isSome_getElem?]
  cases hheld : r.services[name.text]? with
  | some held =>
    have hget : r.get? name = some held := hheld
    change r.get? n = _
    split
    · next h => rw [h, hget, Option.getD_some]
    · rfl
  | none =>
    have hget : r.get? name = none := hheld
    change (r.services.insert name.text port)[n.text]? = _
    rw [Std.TreeMap.getElem?_insert]
    simp only [compare_eq_iff, ServiceName.text_inj]
    split
    · next h => rw [h, hget, Option.getD_none]
    · rfl

/-- A name that is freed serves nobody. -/
theorem get?_apply_unbind (r : Registry) (name n : ServiceName) :
    (r.apply (.unbind name)).get? n = if n = name then none else r.get? n := by
  rw [apply, unbind, Std.TreeMap.contains_eq_isSome_getElem?]
  cases hheld : r.services[name.text]? with
  | some held =>
    change (r.services.erase name.text)[n.text]? = _
    rw [Std.TreeMap.getElem?_erase]
    simp only [compare_eq_iff, ServiceName.text_inj]
    rfl
  | none =>
    have hget : r.get? name = none := hheld
    change r.get? n = _
    split
    · next h => rw [h, hget]
    · rfl

/-- Only a change that concerns its word changes the entry of a name. -/
theorem get?_apply (r : Registry) (change : Change) (n : ServiceName) :
    (r.apply change).get? n = if change.Concerns n.toWord then change.on (r.get? n) else r.get? n := by
  cases change with
  | bind name port => rw [get?_apply_bind]; simp only [Change.Concerns, ServiceName.toWord_inj]; rfl
  | unbind name => rw [get?_apply_unbind]; simp only [Change.Concerns, ServiceName.toWord_inj]; rfl
  | clear => simp [apply, get?, Change.Concerns, Change.on]

/-- The entry of a name is what the changes that concern it make of it. -/
theorem get?_foldl_apply (r : Registry) (changes : List Change) (n : ServiceName) :
    (changes.foldl apply r).get? n = (changes.filter (Change.Concerns n.toWord)).foldl Change.on (r.get? n) := by
  induction changes generalizing r with
  | nil => rfl
  | cons change rest ih =>
    rw [List.foldl_cons, ih, get?_apply, List.filter_cons]
    by_cases h : change.Concerns n.toWord
    · simp only [h, if_true, decide_true, List.foldl_cons]
    · simp only [h, if_false, decide_false, Bool.false_eq_true]

end Registry

/-- Every accepted text is a name that its word is read as again, every word that is read as a name is the word of that name, and these
are the words whose bytes are those of a name and then zeros; the accepted texts are those that such bytes encode. It makes no
difference whether a reader decodes the bytes before the first zero. So two words stand for two keys of a registry, and what a word
reaches after any changes is decided by the changes that concern it. -/
theorem names_are_words :
    (∀ text n, ServiceName.ofString text = .ok n → n.text = text ∧ n.toWord < wordLimit ∧ ServiceName.ofWord n.toWord = .ok n) ∧
    (∀ (word : UInt64) n, ServiceName.ofWord word.toNat = .ok n → n.toWord = word.toNat) ∧
    (∀ word : UInt64, (∃ n, ServiceName.ofWord word.toNat = .ok n) ↔
      ∃ bytes, IsNameBytes bytes ∧ Wire.word64 word.toNat = bytes ++ Wire.zeros (8 - bytes.length)) ∧
    (∀ text, (∃ n, ServiceName.ofString text = .ok n) ↔ IsNameBytes (utf8 text)) ∧
    (∀ word : UInt64, ServiceName.decodeWord word.toNat = ServiceName.ofWord word.toNat) ∧
    (∀ (word word' : UInt64) n n', ServiceName.ofWord word.toNat = .ok n → ServiceName.ofWord word'.toNat = .ok n' →
      word ≠ word' → n.text ≠ n'.text) ∧
    ∀ (r : Registry) (changes : List Registry.Change) (word : UInt64) n, ServiceName.ofWord word.toNat = .ok n →
      (changes.foldl Registry.apply r).get? n =
        (changes.filter (Registry.Change.Concerns word.toNat)).foldl Registry.Change.on (r.get? n) := by
  have hword (word : UInt64) (n : ServiceName) (h : ServiceName.ofWord word.toNat = .ok n) : n.toWord = word.toNat :=
    (ServiceName.toWord_of_ofWord h).trans (Nat.mod_eq_of_lt word.toNat_lt)
  refine ⟨fun text n h => ⟨ServiceName.ofString_eq_ok_iff.1 h, n.toWord_lt, n.ofWord_toWord⟩, hword, fun word => ?_, fun text => ?_,
    fun word => ServiceName.decodeWord_eq _, fun word word' n n' h h' hne htext => hne ?_, fun r changes word n h => ?_⟩
  · simp only [ServiceName.ofWord_eq_ok_iff]
    constructor
    · rintro ⟨n, h⟩
      exact ⟨utf8 n.text, n.isNameBytes_utf8, h⟩
    · rintro ⟨bytes, hbytes, h⟩
      refine ⟨⟨ServiceName.textOfBytes bytes, ServiceName.isServiceName_textOfBytes_iff.2 hbytes⟩, ?_⟩
      rw [ServiceName.utf8_textOfBytes hbytes]
      exact h
  · simp only [ServiceName.ofString_eq_ok_iff, ← isServiceName_iff]
    exact ⟨fun ⟨n, h⟩ => h ▸ n.valid, fun h => ⟨⟨text, h⟩, rfl⟩⟩
  · rw [← UInt64.toNat_inj, ← hword word n h, ← hword word' n' h', ServiceName.text_inj.1 htext]
  · rw [← hword word n h]
    exact r.get?_foldl_apply changes n

/-- Two words of a registry: a port is registered under the first, and the name of the second is given away and freed. -/
theorem names_are_words_nsAm :
    let first : ServiceName := ⟨"ns:am", by decide⟩
    let second : ServiceName := ⟨"hid", by decide⟩
    let r : Registry := [.bind first 7, .bind second 8, .unbind second].foldl .apply { kernel := 0, ready := 1 }
    ServiceName.ofWord 0x6D613A736E = .ok first ∧ first.toWord = 0x6D613A736E ∧ ServiceName.ofWord first.toWord = .ok first ∧
      r.get? first = some 7 := by
  intro first second r
  have hread : ServiceName.ofWord (0x6D613A736E : UInt64).toNat = .ok first := by decide
  have hwritten := names_are_words.2.1 0x6D613A736E first hread
  obtain ⟨-, -, hback⟩ := names_are_words.1 "ns:am" first (by decide)
  obtain ⟨-, -, -, -, -, -, hreached⟩ := names_are_words
  refine ⟨hread, hwritten, hback, (hreached { kernel := 0, ready := 1 } _ 0x6D613A736E first hread).trans ?_⟩
  decide

end Microkernel
