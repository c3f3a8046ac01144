import Mathlib.Data.String.Basic

/-!
# UTF-8

How many bytes a text has (an ASCII character is one byte), and what is left of an encoded text that
is cut after a number of bytes: `decodeIgnore` is `bytes.decode("utf-8", errors="ignore")`, and
`decodeIgnore_take` says that it gives back the characters that are there in full (`fitting`).
-/

namespace MessageService.Lib

/-! ## Lengths -/

/-- Every character is a single byte. -/
def IsAscii (cs : List Char) : Prop := ∀ c ∈ cs, c.utf8Size = 1

theorem utf8ByteSize_eq_utf8Len (s : String) : s.utf8ByteSize = String.utf8Len s.toList := by
  rw [← String.utf8ByteSize_ofList, String.ofList_toList]

/-- An ASCII text has as many bytes as characters. -/
theorem IsAscii.utf8Len {cs : List Char} (h : IsAscii cs) : String.utf8Len cs = cs.length := by
  induction cs with
  | nil => rfl
  | cons c cs ih =>
    obtain ⟨hc, hcs⟩ := List.forall_mem_cons.mp h
    rw [String.utf8Len_cons, ih hcs, hc, List.length_cons]

/-! ## Bytes -/

/-- `s.encode("utf-8")`. -/
def encodeUtf8 (cs : List Char) : List UInt8 := cs.flatMap String.utf8EncodeChar

theorem length_encodeUtf8 (cs : List Char) : (encodeUtf8 cs).length = String.utf8Len cs := by
  induction cs with
  | nil => rfl
  | cons c cs ih =>
    have h : encodeUtf8 (c :: cs) = String.utf8EncodeChar c ++ encodeUtf8 cs := List.flatMap_cons
    rw [h, List.length_append, String.length_utf8EncodeChar, ih, String.utf8Len_cons, Nat.add_comm]

/-- The character that starts here. -/
def decodeHead (bytes : List UInt8) : Option Char := bytes.toByteArray.utf8DecodeChar? 0

theorem decodeHead_encode_append (c : Char) (bytes : List UInt8) :
    decodeHead (String.utf8EncodeChar c ++ bytes) = some c := by
  unfold decodeHead
  rw [List.toByteArray_append]
  exact ByteArray.utf8DecodeChar?_utf8EncodeChar_append

theorem exists_of_decodeHead {bytes : List UInt8} {c : Char} (h : decodeHead bytes = some c) :
    ∃ rest, bytes = String.utf8EncodeChar c ++ rest := by
  obtain ⟨b, hb⟩ := ByteArray.exists_of_utf8DecodeChar?_eq_some h
  refine ⟨b.data.toList, ?_⟩
  have hdata := congrArg (fun x => x.data.toList) hb
  simpa using hdata

/-- A character that is cut does not decode. -/
theorem decodeHead_take (c : Char) {n : Nat} (hn : n < c.utf8Size) :
    decodeHead ((String.utf8EncodeChar c).take n) = none := by
  refine Option.eq_none_iff_forall_not_mem.mpr fun d hd => ?_
  obtain ⟨rest, hrest⟩ := exists_of_decodeHead hd
  -- the whole of `c` then starts with `d` as well
  have hwhole : String.utf8EncodeChar c =
      String.utf8EncodeChar d ++ (rest ++ (String.utf8EncodeChar c).drop n) := by
    rw [← List.append_assoc, ← hrest, List.take_append_drop]
  have hc := decodeHead_encode_append c []
  rw [List.append_nil, hwhole, decodeHead_encode_append] at hc
  obtain rfl := Option.some.inj hc
  have hlength := congrArg List.length hrest
  rw [List.length_take, List.length_append, String.length_utf8EncodeChar] at hlength
  omega

/-- `bytes.decode("utf-8", errors="ignore")`: a byte that starts no character is skipped. -/
def decodeIgnore : List UInt8 → List Char
  | [] => []
  | b :: bytes =>
    match decodeHead (b :: bytes) with
    | some c => c :: decodeIgnore (bytes.drop (c.utf8Size - 1))
    | none => decodeIgnore bytes
termination_by bytes => bytes.length
decreasing_by
  all_goals simp only [List.length_drop, List.length_cons]
  all_goals omega

theorem decodeIgnore_nil : decodeIgnore [] = [] := by rw [decodeIgnore]

theorem decodeIgnore_encode_append (c : Char) (bytes : List UInt8) :
    decodeIgnore (String.utf8EncodeChar c ++ bytes) = c :: decodeIgnore bytes := by
  cases henc : String.utf8EncodeChar c with
  | nil =>
    have hlength := congrArg List.length henc
    rw [String.length_utf8EncodeChar] at hlength
    exact absurd hlength c.utf8Size_pos.ne'
  | cons b bs =>
    have hhead : decodeHead (b :: (bs ++ bytes)) = some c := by
      have h := decodeHead_encode_append c bytes
      rwa [henc] at h
    have hlength : bs.length = c.utf8Size - 1 := by
      have h := congrArg List.length henc
      rw [String.length_utf8EncodeChar, List.length_cons] at h
      omega
    rw [List.cons_append, decodeIgnore, hhead]
    simp only
    rw [← hlength, List.drop_left]

/-- Continuation bytes start no character. -/
theorem decodeIgnore_of_continuation {bytes : List UInt8}
    (h : ∀ b ∈ bytes, ¬b.IsUTF8FirstByte) : decodeIgnore bytes = [] := by
  induction bytes with
  | nil => exact decodeIgnore_nil
  | cons b bytes ih =>
    obtain ⟨hb, hbytes⟩ := List.forall_mem_cons.mp h
    have hhead : decodeHead (b :: bytes) = none := by
      refine Option.eq_none_iff_forall_not_mem.mpr fun d hd => hb ?_
      have h := ByteArray.isUTF8FirstByte_of_isSome_utf8DecodeChar? (Option.isSome_of_eq_some hd)
      rwa [List.getElem_toByteArray] at h
    rw [decodeIgnore, hhead]
    exact ih hbytes

/-- A character that is cut leaves nothing. -/
theorem decodeIgnore_take_encode (c : Char) {n : Nat} (hn : n < c.utf8Size) :
    decodeIgnore ((String.utf8EncodeChar c).take n) = [] := by
  have hhead := decodeHead_take c hn
  cases htake : (String.utf8EncodeChar c).take n with
  | nil => exact decodeIgnore_nil
  | cons b bytes =>
    rw [htake] at hhead
    rw [decodeIgnore, hhead]
    refine decodeIgnore_of_continuation fun x hx => ?_
    obtain ⟨i, hi, rfl⟩ := List.getElem_of_mem hx
    have hget : (String.utf8EncodeChar c)[i + 1]? = some bytes[i] := by
      have h : ((String.utf8EncodeChar c).take n)[i + 1]? = some bytes[i] := by
        rw [htake, List.getElem?_cons_succ, List.getElem?_eq_getElem hi]
      rw [List.getElem?_take] at h
      split at h
      · exact h
      · cases h
    obtain ⟨hlt, hget⟩ := List.getElem?_eq_some_iff.mp hget
    rw [← hget, UInt8.isUTF8FirstByte_getElem_utf8EncodeChar]
    exact Nat.succ_ne_zero i

/-- The characters at the start that fit into `n` bytes. -/
def fitting : Nat → List Char → List Char
  | _, [] => []
  | n, c :: cs => if c.utf8Size ≤ n then c :: fitting (n - c.utf8Size) cs else []

/-- **What is left of a cut text**: the characters that are there in full. -/
theorem decodeIgnore_take (n : Nat) (cs : List Char) :
    decodeIgnore ((encodeUtf8 cs).take n) = fitting n cs := by
  induction cs generalizing n with
  | nil =>
    have h : (encodeUtf8 []).take n = [] := List.take_nil
    rw [h, fitting]
    exact decodeIgnore_nil
  | cons c cs ih =>
    have h : encodeUtf8 (c :: cs) = String.utf8EncodeChar c ++ encodeUtf8 cs := List.flatMap_cons
    rw [h, fitting, List.take_append, String.length_utf8EncodeChar]
    split
    · next hfits =>
      rw [List.take_of_length_le (by rw [String.length_utf8EncodeChar]; exact hfits),
        decodeIgnore_encode_append, ih]
    · next hcut =>
      rw [Nat.sub_eq_zero_of_le (by omega), List.take_zero, List.append_nil,
        decodeIgnore_take_encode c (by omega)]

theorem fitting_prefix (n : Nat) (cs : List Char) : fitting n cs <+: cs := by
  induction cs generalizing n with
  | nil => exact List.prefix_rfl
  | cons c cs ih =>
    rw [fitting]
    split
    · exact List.cons_prefix_cons.mpr ⟨rfl, ih _⟩
    · exact List.nil_prefix

end MessageService.Lib
