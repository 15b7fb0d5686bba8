import GaussMatrix.Library.Collections
import GaussMatrix.Library.SortedScan

namespace GaussMatrix.Database

open Collections SortedScan Std ExtTreeMap

abbrev Bytes := List UInt8

def SEP : UInt8 := 255

-- The depth and the finalized flag of the source serve debug assertions only.
structure Serializer where
  out : Bytes
  sep : Bool

def Serializer.recordStart (s : Serializer) : Serializer :=
  { out := if s.sep then s.out ++ [SEP] else s.out, sep := true }

def Serializer.serializeElement (s : Serializer) (written : Bytes) : Serializer :=
  { out := s.recordStart.out ++ written, sep := true }

-- A tuple is given by what each of its elements writes: a string its bytes.
def serializeKey (elements : List Bytes) : Bytes :=
  (elements.foldl Serializer.serializeElement { out := [], sep := false }).out

structure Deserializer where
  buf : Bytes
  pos : Nat
  record : Nat
  seq : Nat

def Deserializer.recordStart (d : Deserializer) : Deserializer :=
  let started := d.pos ≠ 0 ∨ d.record > 0
  let incomplete := d.pos ≥ d.buf.length ∧ ¬ d.record ≥ d.seq
  { d with pos := if started ∧ ¬ incomplete then d.pos + 1 else d.pos, record := d.record + 1 }

def Deserializer.recordNext (d : Deserializer) : Bytes × Deserializer :=
  let record := (d.buf.drop d.pos).takeWhile (· != SEP)
  (record, { d with pos := d.pos + record.length })

-- None is the error of a sequence that ends before its tuple is filled.
def Deserializer.nextElement (d : Deserializer) : Option Deserializer :=
  if d.pos ≥ d.buf.length ∧ d.record ≥ d.seq then none else some d.recordStart

-- A str-backed identifier: parse is the UTF-8 check of deserialize_str followed
-- by the identifier's own grammar, which accepts every identifier's own text.
class Identifier (Id : Type) where
  bytes : Id → Bytes
  parse : Bytes → Option Id
  parse_bytes : ∀ id, parse (bytes id) = some id
  unseparated : ∀ id, SEP ∉ bytes id

export Identifier (bytes parse)

def deserializeIgnoreId (Id : Type) [Identifier Id] (buf : Bytes) : Option Id :=
  (Deserializer.nextElement { buf := buf, pos := 0, record := 0, seq := 2 }).bind fun first =>
    (first.recordNext.2.nextElement).bind fun second => parse second.recordNext.1

def keysRawPrefix {V : Type} (map : BTreeMap Bytes V) (pfx : Bytes) : List Bytes := scan map.keys pfx

theorem serialize_pair (first second : Bytes) : serializeKey [first, second] = first ++ SEP :: second := by
  simp [serializeKey, Serializer.serializeElement, Serializer.recordStart]

variable {record : Bytes}

theorem record_byte_plain (plain : SEP ∉ record) (byte : UInt8) (member : byte ∈ record) : (byte != SEP) = true := by
  rw [bne_iff_ne]
  intro same
  exact plain (same ▸ member)

theorem take_record (rest : Bytes) (plain : SEP ∉ record) : (record ++ SEP :: rest).takeWhile (· != SEP) = record := by
  rw [List.takeWhile_append_of_pos (record_byte_plain plain)]
  simp

theorem take_last_record (plain : SEP ∉ record) : record.takeWhile (· != SEP) = record :=
  List.takeWhile_eq_self_iff.mpr (record_byte_plain plain)

section

variable {First Second : Type} [Identifier First] [Identifier Second]

theorem pair_decodes (a : First) (b : Second) :
    deserializeIgnoreId Second (serializeKey [bytes a, bytes b]) = some b := by
  rw [serialize_pair]
  have skipped := take_record (bytes b) (Identifier.unseparated a)
  have kept := take_last_record (Identifier.unseparated b)
  simp [deserializeIgnoreId, Deserializer.nextElement, Deserializer.recordStart, Deserializer.recordNext, skipped, kept,
    Identifier.parse_bytes]

theorem bytes_injective {a b : First} (same : bytes a = bytes b) : a = b := by
  have decoded := Identifier.parse_bytes a
  rw [same, Identifier.parse_bytes] at decoded
  exact (Option.some.inj decoded).symm

theorem pair_extends (pfx : First) (a : First) (b : Second) :
    bytes pfx <+: serializeKey [bytes a, bytes b] ↔ bytes pfx <+: bytes a := by
  rw [serialize_pair]
  exact extends_separated (Identifier.unseparated pfx)

theorem pair_injective {a c : First} {b d : Second}
    (same : serializeKey [bytes a, bytes b] = serializeKey [bytes c, bytes d]) : a = c ∧ b = d := by
  have second : b = d := by
    have decoded := pair_decodes a b
    rw [same, pair_decodes] at decoded
    exact (Option.some.inj decoded).symm
  subst second
  rw [serialize_pair, serialize_pair] at same
  exact ⟨bytes_injective (List.append_inj_left' same rfl), rfl⟩

end

theorem keys_raw_prefix_filter {V : Type} (map : BTreeMap Bytes V) (pfx : Bytes) :
    keysRawPrefix map pfx = map.keys.filter fun key => decide (pfx <+: key) :=
  scan_filter pfx ordered_keys

variable {V : Type}

-- Interfix writes its separator and nothing after it.
def interfix : Bytes := []

section

variable (map : BTreeMap Bytes V)

-- The scan reads a snapshot, so what is removed does not change what is found.
def removeScanned (pfx : Bytes) : BTreeMap Bytes V := eraseAll map (keysRawPrefix map pfx)

theorem scanned_key (pfx key : Bytes) : key ∈ keysRawPrefix map pfx ↔ key ∈ map ∧ pfx <+: key := by
  rw [keys_raw_prefix_filter, List.mem_filter, mem_keys, decide_eq_true_eq]

theorem scanned_nodup (pfx : Bytes) : (keysRawPrefix map pfx).Nodup := by
  rw [keys_raw_prefix_filter]
  exact nodup_keys.filter _

theorem remove_scanned_lookup {pfx key : Bytes} :
    (removeScanned map pfx)[key]? = if pfx <+: key then none else map[key]? := by
  rw [removeScanned, erase_all_lookup]
  by_cases inside : pfx <+: key
  · split
    case isTrue => rfl
    case isFalse absent => exact ExtTreeMap.getElem?_eq_none fun held => absent ((scanned_key map pfx key).mpr ⟨held, inside⟩)
  · rw [if_neg inside, if_neg fun found => inside ((scanned_key map pfx key).mp found).2]

theorem remove_scanned_member {pfx : Bytes} {key : Bytes} :
    key ∈ removeScanned map pfx ↔ key ∈ map ∧ ¬ pfx <+: key := by
  rw [mem_iff_isSome_getElem?, mem_iff_isSome_getElem?, remove_scanned_lookup]
  by_cases inside : pfx <+: key
  · rw [if_pos inside]
    exact iff_of_false Bool.false_ne_true fun both => both.2 inside
  · rw [if_neg inside, and_iff_left inside]

end

theorem small_byte_plain (n : Nat) (small : n < 255) : SEP ≠ UInt8.ofNat n := by
  intro same
  have value := congrArg UInt8.toNat same
  rw [UInt8.toNat_ofNat', Nat.mod_eq_of_lt (by omega)] at value
  have sep : SEP.toNat = 255 := rfl
  omega

-- The lead byte of the longest encoding is at most 247.
theorem encoded_char_plain {c : Char} : SEP ∉ String.utf8EncodeChar c := by
  rw [String.utf8EncodeChar]
  split_ifs
  all_goals
    simp only [List.mem_cons, List.not_mem_nil, or_false, not_or]
    repeat' apply And.intro
  all_goals
    apply small_byte_plain
    omega

instance : Identifier String where
  bytes text := text.toByteArray.data.toList
  parse bytes := String.fromUTF8? ⟨bytes.toArray⟩
  parse_bytes := by
    intro text
    simp [String.fromUTF8?, text.isValidUTF8]
    rfl
  unseparated := by
    intro text member
    obtain ⟨chars, encoded⟩ := text.isValidUTF8
    rw [encoded, List.utf8Encode] at member
    simp at member
    obtain ⟨c, _, inChar⟩ := member
    exact encoded_char_plain inChar

end GaussMatrix.Database
