import MessageService.Lib.Utf8
import Mathlib.Tactic.Common

/-!
# The protobuf wire format

The encoding of messages whose fields are numbers, strings and messages, and the length of it: a
field is a tag and a value, a string or a message goes after its length, and a number is a varint.
A string or a number that is empty or zero is left out, but for the two fields of a map entry, which
are always written. Field numbers are below 16, so that a tag is one byte.
-/

namespace MessageService.Lib.Protobuf

/-- A number in base 128, the lowest digit first. -/
def varint (n : Nat) : List UInt8 :=
  if n < 128 then [UInt8.ofNat n] else UInt8.ofNat (128 + n % 128) :: varint (n / 128)

/-- How many bytes it has. -/
def varintSize (n : Nat) : Nat := if n < 128 then 1 else varintSize (n / 128) + 1

theorem length_varint (n : Nat) : (varint n).length = varintSize n := by
  induction n using varint.induct with
  | case1 n h => rw [varint, varintSize, if_pos h, if_pos h, List.length_singleton]
  | case2 n h ih => rw [varint, varintSize, if_neg h, if_neg h, List.length_cons, ih]

theorem varintSize_of_lt {n : Nat} (h : n < 128) : varintSize n = 1 := by
  rw [varintSize, if_pos h]

theorem varintSize_pos (n : Nat) : 1 ≤ varintSize n := by
  rw [varintSize]
  split <;> omega

/-- A number below 2 ^ 14 has at most two bytes. -/
theorem varintSize_le_two {n : Nat} (h : n < 16384) : varintSize n ≤ 2 := by
  rw [varintSize]
  split
  · omega
  · rw [varintSize_of_lt (by omega)]

/-- A singular number field. -/
def numberField (field n : Nat) : List UInt8 :=
  if n = 0 then [] else varint (8 * field) ++ varint n

/-- How many bytes it has. -/
def numberFieldSize (n : Nat) : Nat := if n = 0 then 0 else 1 + varintSize n

theorem length_numberField {field : Nat} (h : field < 16) (n : Nat) :
    (numberField field n).length = numberFieldSize n := by
  unfold numberField numberFieldSize
  split
  · rfl
  · rw [List.length_append, length_varint, length_varint, varintSize_of_lt (by omega)]

/-- A field of a string or of a message. -/
def delimited (field : Nat) (payload : List UInt8) : List UInt8 :=
  varint (8 * field + 2) ++ varint payload.length ++ payload

/-- How many bytes it has. -/
def delimitedSize (n : Nat) : Nat := 1 + varintSize n + n

theorem length_delimited {field : Nat} (h : field < 16) (payload : List UInt8) :
    (delimited field payload).length = delimitedSize payload.length := by
  unfold delimited delimitedSize
  rw [List.length_append, List.length_append, length_varint, length_varint,
    varintSize_of_lt (by omega)]

theorem lt_delimitedSize (n : Nat) : n + 1 < delimitedSize n := by
  have h := varintSize_pos n
  unfold delimitedSize
  omega

/-- A singular field of bytes or of a string. -/
def bytesField (field : Nat) (payload : List UInt8) : List UInt8 :=
  if payload = [] then [] else delimited field payload

/-- How many bytes it has. -/
def bytesFieldSize (n : Nat) : Nat := if n = 0 then 0 else delimitedSize n

theorem length_bytesField {field : Nat} (h : field < 16) (payload : List UInt8) :
    (bytesField field payload).length = bytesFieldSize payload.length := by
  unfold bytesField bytesFieldSize
  by_cases hp : payload = []
  · rw [if_pos hp, if_pos (by rw [hp]; rfl), List.length_nil]
  · rw [if_neg hp, if_neg (by simpa using hp), length_delimited h]

theorem le_bytesFieldSize (n : Nat) : n ≤ bytesFieldSize n := by
  unfold bytesFieldSize
  split
  · omega
  · exact Nat.le_of_lt (Nat.lt_of_succ_lt (lt_delimitedSize n))

/-- A singular string field. -/
def stringField (field : Nat) (s : String) : List UInt8 := bytesField field (encodeUtf8 s.toList)

theorem length_encodeUtf8_toList (s : String) : (encodeUtf8 s.toList).length = s.utf8ByteSize := by
  rw [length_encodeUtf8, utf8ByteSize_eq_utf8Len]

theorem length_stringField {field : Nat} (h : field < 16) (s : String) :
    (stringField field s).length = bytesFieldSize s.utf8ByteSize := by
  unfold stringField
  rw [length_bytesField h, length_encodeUtf8_toList]

/-- An entry of a `map<string, string>`. -/
def mapEntry (field : Nat) (e : String × String) : List UInt8 :=
  delimited field (delimited 1 (encodeUtf8 e.1.toList) ++ delimited 2 (encodeUtf8 e.2.toList))

/-- How many bytes it has, for a key and a value of so many bytes. -/
def mapEntrySize (e : Nat × Nat) : Nat := delimitedSize (delimitedSize e.1 + delimitedSize e.2)

theorem lt_mapEntrySize (e : Nat × Nat) : e.1 + e.2 < mapEntrySize e := by
  have h1 := lt_delimitedSize e.1
  have h2 := lt_delimitedSize e.2
  have h3 := lt_delimitedSize (delimitedSize e.1 + delimitedSize e.2)
  unfold mapEntrySize
  omega

/-- The framing of an entry whose key is short and whose value is not too long. -/
theorem mapEntrySize_le {e : Nat × Nat} (hkey : e.1 < 128) (hvalue : e.2 < 16000) :
    mapEntrySize e ≤ e.1 + e.2 + 8 := by
  have h1 := varintSize_of_lt hkey
  have h2 := @varintSize_le_two e.2 (by omega)
  have h3 := @varintSize_le_two (1 + varintSize e.1 + e.1 + (1 + varintSize e.2 + e.2)) (by omega)
  unfold mapEntrySize delimitedSize
  omega

theorem length_mapEntry {field : Nat} (h : field < 16) (e : String × String) :
    (mapEntry field e).length = mapEntrySize (e.1.utf8ByteSize, e.2.utf8ByteSize) := by
  unfold mapEntry mapEntrySize
  rw [length_delimited h, List.length_append, length_delimited (by omega),
    length_delimited (by omega), length_encodeUtf8_toList, length_encodeUtf8_toList]

end MessageService.Lib.Protobuf
