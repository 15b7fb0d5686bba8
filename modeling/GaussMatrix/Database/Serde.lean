import Mathlib.Data.Prod.TProd
import GaussMatrix.Database.Keys
import GaussMatrix.Library.BigEndian

namespace GaussMatrix.Database

open BigEndian Collections List SortedScan

inductive Kind where
  | str
  | u64
  | i64
  | option
  | bytes
deriving DecidableEq

abbrev Field : Kind → Type
  | .str => String
  | .u64 => UInt64
  | .i64 => Int64
  | .option => Option String
  | .bytes => Bytes

-- A byte slice takes all that is left, so it comes last; the empty tuple is a
-- unit and never reaches the tuple methods.
structure Shape where
  first : Kind
  rest : List Kind
  bytesLast : Kind.bytes ∉ (first :: rest).dropLast

abbrev Shape.kinds (shape : Shape) : List Kind := shape.first :: shape.rest

abbrev Tuple (kinds : List Kind) : Type := List.TProd Field kinds

def FieldFilled : (kind : Kind) → Field kind → Prop
  | .option, some text => text ≠ ""
  | _, _ => True

def Filled : (kinds : List Kind) → Tuple kinds → Prop
  | [], _ => True
  | kind :: kinds, (value, values) => FieldFilled kind value ∧ Filled kinds values

namespace Serializer

section

variable (s : Serializer)

def write (buf : Bytes) : Serializer := { s with out := s.out ++ buf }

def sequenceStart : Serializer := { s with sep := false }

def sequenceEnd : Serializer := { s with sep := false }

def serializeBytes (v : Bytes) : Serializer := { s.write v with sep := true }

def serializeStr (v : String) : Serializer := s.serializeBytes (bytes v)

def serializeScalar (be : Bytes) : Serializer := { s.write be with sep := false }

def serializeU8 (v : UInt8) : Serializer := s.serializeScalar [v]

def serializeU64 (v : UInt64) : Serializer := s.serializeScalar (toBytes 8 v.toNat)

def serializeI64 (v : Int64) : Serializer := s.serializeScalar (toBytes 8 v.toUInt64.toNat)

end

def serializeOption {A : Type} (serialize : Serializer → A → Serializer) (s : Serializer) : Option A → Serializer
  | some v => serialize s v
  | none => s

def serializeSeqElement (s : Serializer) (v : UInt8) : Serializer := s.recordStart.serializeU8 v

def serializeSlice (s : Serializer) (v : Bytes) : Serializer :=
  (v.foldl serializeSeqElement s.sequenceStart).sequenceEnd

def serializeField : (kind : Kind) → Serializer → Field kind → Serializer
  | .str => serializeStr
  | .u64 => serializeU64
  | .i64 => serializeI64
  | .option => serializeOption serializeStr
  | .bytes => serializeSlice

def serializeTupleElement (kind : Kind) (s : Serializer) (v : Field kind) : Serializer :=
  { serializeField kind s.recordStart v with sep := true }

def serializeElements : (kinds : List Kind) → Serializer → Tuple kinds → Serializer
  | [], s, _ => s
  | kind :: kinds, s, (value, values) => serializeElements kinds (s.serializeTupleElement kind value) values

end Serializer

def serializeToVec (shape : Shape) (tuple : Tuple shape.kinds) : Bytes :=
  (Serializer.serializeElements shape.kinds (Serializer.sequenceStart { out := [], sep := false })
    tuple).sequenceEnd.out

inductive DeserializeError where
  | utf8
  | serdeDe (message : String)

namespace Deserializer

def recordTrail (d : Deserializer) : Bytes × Deserializer :=
  let record := d.buf.drop d.pos
  (record, { d with pos := d.pos + record.length })

def deserializeStr (d : Deserializer) : Except DeserializeError (String × Deserializer) :=
  match parse d.recordNext.1 with
  | some text => .ok (text, d.recordNext.2)
  | none => .error .utf8

def deserializeWord (message : String) (d : Deserializer) : Except DeserializeError (Nat × Deserializer) :=
  let bytes := (d.buf.take (min (d.pos + 8) d.buf.length)).drop d.pos
  if bytes.length = 8 then .ok (ofBytes bytes, { d with pos := d.pos + 8 }) else .error (.serdeDe message)

def deserializeU64 (d : Deserializer) : Except DeserializeError (UInt64 × Deserializer) :=
  (d.deserializeWord "u64 buffer underflow").map fun read => (UInt64.ofNat read.1, read.2)

def deserializeI64 (d : Deserializer) : Except DeserializeError (Int64 × Deserializer) :=
  (d.deserializeWord "i64 buffer underflow").map fun read => ((UInt64.ofNat read.1).toInt64, read.2)

def deserializeOption {A : Type} (deserialize : Deserializer → Except DeserializeError (A × Deserializer))
    (d : Deserializer) : Except DeserializeError (Option A × Deserializer) :=
  if d.buf[d.pos]?.all (· == SEP) then .ok (none, d) else (deserialize d).map fun read => (some read.1, read.2)

def deserializeField : (kind : Kind) → Deserializer → Except DeserializeError (Field kind × Deserializer)
  | .str => deserializeStr
  | .u64 => deserializeU64
  | .i64 => deserializeI64
  | .option => deserializeOption deserializeStr
  | .bytes => fun d => .ok d.recordTrail

def visitTuple (size : Nat) : (kinds : List Kind) → Deserializer → Except DeserializeError (Tuple kinds × Deserializer)
  | [], d => .ok (PUnit.unit, d)
  | kind :: kinds, d =>
    match d.nextElement with
    | none =>
      let index := size - (kind :: kinds).length
      .error (.serdeDe s!"invalid length {index}, expected a tuple of size {size}")
    | some started => do
      let (value, read) ← deserializeField kind started
      let (values, last) ← visitTuple size kinds read
      return ((value, values), last)

def remaining (d : Deserializer) : Nat := d.buf.length - d.pos

def finished (d : Deserializer) : Bool := d.remaining == 0 || d.remaining == 1 && d.buf[d.pos]? == some SEP

end Deserializer

def deserializeTuple (kinds : List Kind) (buf : Bytes) : Except DeserializeError (Tuple kinds × Deserializer) :=
  Deserializer.visitTuple kinds.length kinds { buf := buf, pos := 0, record := 0, seq := kinds.length }

def fromSlice (kinds : List Kind) (buf : Bytes) : Except DeserializeError (Tuple kinds) :=
  (deserializeTuple kinds buf).map Prod.fst

def written : (kind : Kind) → Field kind → Bytes
  | .str, text => bytes text
  | .u64, word => toBytes 8 word.toNat
  | .i64, word => toBytes 8 word.toUInt64.toNat
  | .option, text => text.elim [] bytes
  | .bytes, slice => slice

def separated : (kinds : List Kind) → Tuple kinds → Bytes
  | [], _ => []
  | kind :: kinds, (value, values) => SEP :: written kind value ++ separated kinds values

theorem slice_elements (slice : Bytes) (s : Serializer) (joined : s.sep = false) :
    slice.foldl Serializer.serializeSeqElement s = { s with out := s.out ++ slice } := by
  induction slice generalizing s with
  | nil => simp
  | cons byte rest ih =>
    have first : s.serializeSeqElement byte = { s with out := s.out ++ [byte] } := by
      simp [Serializer.serializeSeqElement, Serializer.serializeU8, Serializer.serializeScalar, Serializer.write, Serializer.recordStart, joined]
    rw [foldl_cons, first, ih { s with out := s.out ++ [byte] } joined]
    simp

theorem serialize_field_out (kind : Kind) (s : Serializer) (value : Field kind) :
    (s.serializeField kind value).out = s.out ++ written kind value := by
  cases kind with
  | bytes =>
    change (value.foldl Serializer.serializeSeqElement s.sequenceStart).out = s.out ++ value
    rw [slice_elements value s.sequenceStart rfl]
    rfl
  | option =>
    cases value with
    | none => exact (append_nil _).symm
    | some text => rfl
  | _ => rfl

theorem serialize_tuple_element (kind : Kind) (s : Serializer) (value : Field kind) :
    s.serializeTupleElement kind value = s.serializeElement (written kind value) := by
  rw [Serializer.serializeTupleElement, Serializer.serializeElement, serialize_field_out]

theorem serialize_elements_out (kinds : List Kind) (s : Serializer) (later : s.sep = true) (tuple : Tuple kinds) :
    (s.serializeElements kinds tuple).out = s.out ++ separated kinds tuple := by
  induction kinds generalizing s with
  | nil => exact (append_nil _).symm
  | cons kind kinds ih =>
    obtain ⟨value, values⟩ := tuple
    rw [Serializer.serializeElements, serialize_tuple_element, ih _ rfl]
    simp [Serializer.serializeElement, Serializer.recordStart, later, separated]

theorem serialize_to_vec_eq (shape : Shape) (value : Field shape.first) (values : Tuple shape.rest) :
    serializeToVec shape (value, values) = written shape.first value ++ separated shape.rest values := by
  change (Serializer.serializeElements shape.rest (Serializer.serializeTupleElement shape.first _ value) values).out = _
  rw [serialize_tuple_element]
  exact serialize_elements_out shape.rest _ rfl values

variable {kinds : List Kind}

theorem numbered_compare {otherKinds : List Kind} (last : Kind.bytes ∉ (.str :: .u64 :: kinds).dropLast)
    (otherLast : Kind.bytes ∉ (.str :: .u64 :: otherKinds).dropLast)
    (s : String) (n m : UInt64) (values : Tuple kinds) (otherValues : Tuple otherKinds) :
    compare (serializeToVec ⟨.str, .u64 :: kinds, last⟩ (s, n, values))
    (serializeToVec ⟨.str, .u64 :: otherKinds, otherLast⟩ (s, m, otherValues)) =
      (compare n.toNat m.toNat).then (compare (separated kinds values) (separated otherKinds otherValues)) := by
  refine (congrArg₂ compare (serialize_to_vec_eq ⟨.str, .u64 :: kinds, last⟩ s (n, values))
    (serialize_to_vec_eq ⟨.str, .u64 :: otherKinds, otherLast⟩ s (m, otherValues))).trans ?_
  change compare (bytes s ++ SEP :: (toBytes 8 n.toNat ++ separated kinds values))
    (bytes s ++ SEP :: (toBytes 8 m.toNat ++ separated otherKinds otherValues)) = _
  rw [compare_append, compare_cons, compare_self]
  exact to_bytes_compare 8 _ _ _ _ n.toNat_lt m.toNat_lt

theorem serialized_prefixes_exact {V : Type} (map : BTreeMap Bytes V) (kind : Kind) (kinds tail : List Kind)
    (last : Kind.bytes ∉ (.str :: kind :: kinds).dropLast)
    (tailLast : Kind.bytes ∉ (.str :: .u64 :: tail).dropLast) (a : String) :
    (∀ other values, serializeKey [bytes a, interfix] <+: serializeToVec ⟨.str, kind :: kinds, last⟩
    (other, values) ↔ a = other) ∧
      (∀ key, key ∈ keysRawPrefix map (serializeKey [bytes a, interfix]) ↔ key ∈ map ∧ serializeKey [bytes a, interfix] <+: key) ∧
      (keysRawPrefix map (serializeKey [bytes a, interfix])).Pairwise (fun key later => compare key later = .lt) ∧
      (∀ n m values otherValues, compare (serializeToVec ⟨.str, .u64 :: tail, tailLast⟩ (a, n, values))
      (serializeToVec ⟨.str, .u64 :: tail, tailLast⟩ (a, m, otherValues)) =
        (compare n.toNat m.toNat).then (compare (separated tail values) (separated tail otherValues))) ∧
      ∀ n m values, compare (serializeToVec ⟨.str, .u64 :: tail, tailLast⟩ (a, n, values))
      (serializeToVec ⟨.str, [.u64], by decide⟩ (a, m, PUnit.unit)) ≠ .lt ↔ m ≤ n := by
  refine ⟨fun other values => ?_, scanned_key map _, ?_, numbered_compare tailLast tailLast a, fun n m values => ?_⟩
  · have whole := serialize_to_vec_eq ⟨.str, kind :: kinds, last⟩ other values
    have split : serializeKey [bytes a, interfix] <+: bytes other ++
      SEP :: (written kind values.1 ++ separated kinds values.2) ↔ a = other := by
      rw [serialize_pair, separated_extends (Identifier.unseparated a) (Identifier.unseparated other)]
      exact ⟨fun both => bytes_injective both.1, fun same => ⟨same ▸ rfl, nil_prefix⟩⟩
    exact (iff_of_eq (congrArg _ whole)).trans split
  · rw [keys_raw_prefix_filter]
    exact Std.ExtTreeMap.ordered_keys.filter _
  · rw [UInt64.le_iff_toNat_le]
    refine (not_congr (iff_of_eq (congrArg (· = .lt) (@numbered_compare tail [] tailLast (by decide) a n m values PUnit.unit)))).trans ?_
    have shortest : compare (separated tail values) (separated [] PUnit.unit) ≠ .lt := by
      change compare (separated tail values) [] ≠ .lt
      cases separated tail values <;> rintro ⟨⟩
    cases order : compare n.toNat m.toNat with
    | lt => exact iff_of_false (by simp) (Nat.not_le.mpr (Nat.compare_eq_lt.mp order))
    | eq => exact iff_of_true shortest (Nat.compare_eq_eq.mp order).ge
    | gt => exact iff_of_true (by simp) (Nat.compare_eq_gt.mp order).le

theorem separator_count_ordered :
    serializeKey [bytes "a", interfix] <+: serializeToVec ⟨.str, [.u64], by decide⟩ ("a", 255, PUnit.unit) ∧
      compare (serializeToVec ⟨.str, [.u64], by decide⟩ ("a", 255, PUnit.unit))
      (serializeToVec ⟨.str, [.u64], by decide⟩ ("a", 256, PUnit.unit)) = .lt := by
  obtain ⟨inside, _, _, order, _⟩ := serialized_prefixes_exact (∅ : BTreeMap Bytes Unit) .u64 [] [] (by decide)
    (by decide) "a"
  exact ⟨(inside "a" (255, PUnit.unit)).mpr rfl, (order 255 256 PUnit.unit PUnit.unit).trans (by decide)⟩

open Deserializer

variable {kind : Kind} {front rest : Bytes} {d : Deserializer}

theorem record_next_plain {record : Bytes} (plain : SEP ∉ record) (whole : d.buf = front ++ (record ++ rest))
    (placed : d.pos = front.length)
    (ends : rest.head?.all (· == SEP)) : d.recordNext = (record, { d with pos := d.pos + record.length }) := by
  have read : (d.buf.drop d.pos).takeWhile (· != SEP) = record := by
    rw [whole, placed, drop_left]
    cases rest with
    | nil => rw [append_nil, take_last_record plain]
    | cons byte rest =>
      obtain rfl : byte = SEP := beq_iff_eq.mp ends
      exact take_record rest plain
  rw [recordNext, read]

theorem text_read {text : String} (whole : d.buf = front ++ (bytes text ++ rest)) (placed : d.pos = front.length)
    (ends : rest.head?.all (· == SEP)) :
    d.deserializeStr = .ok (text, { d with pos := d.pos + (bytes text).length }) := by
  rw [deserializeStr, record_next_plain (Identifier.unseparated text) whole placed ends, Identifier.parse_bytes]

theorem word_read {message : String} {word : UInt64} (whole : d.buf = front ++ (toBytes 8 word.toNat ++ rest))
    (placed : d.pos = front.length) : d.deserializeWord message = .ok (word.toNat, { d with pos := d.pos + 8 }) := by
  have length := to_bytes_length 8 word.toNat
  have room : d.pos + 8 ≤ d.buf.length := by
    rw [whole, placed, length_append, length_append, length]
    omega
  have slice : (d.buf.take (min (d.pos + 8) d.buf.length)).drop d.pos = toBytes 8 word.toNat := by
    rw [Nat.min_eq_left room, drop_take, Nat.add_sub_cancel_left, whole, placed, drop_left, take_left' length]
  have back : ofBytes (toBytes 8 word.toNat) = word.toNat := of_to_bytes_of_lt word.toNat_lt
  simp only [deserializeWord, slice, length, if_true, back]

theorem text_starts_plain {text : String} (filled : text ≠ "") :
    ∃ byte tail, bytes text = byte :: tail ∧ byte ≠ SEP := by
  cases encoded : bytes text with
  | nil => exact absurd (bytes_injective encoded) filled
  | cons byte tail =>
    have plain : SEP ∉ bytes text := Identifier.unseparated text
    rw [encoded] at plain
    exact ⟨byte, tail, rfl, fun same => plain (same ▸ mem_cons_self)⟩

theorem option_read {text : Option String} (filled : FieldFilled .option text)
    (whole : d.buf = front ++ (written .option text ++ rest))
    (placed : d.pos = front.length) (ends : rest.head?.all (· == SEP)) :
    d.deserializeOption deserializeStr = .ok (text, { d with pos := d.pos + (written .option text).length }) := by
  have next : d.buf[d.pos]? = (written .option text ++ rest).head? := by
    rw [whole, placed, getElem?_append_right le_rfl, Nat.sub_self, head?_eq_getElem?]
  cases text with
  | none =>
    rw [deserializeOption, next]
    exact if_pos ends
  | some text =>
    obtain ⟨byte, tail, encoded, plain⟩ := text_starts_plain filled
    have starts : (written .option (some text) ++ rest).head? = some byte := by
      change (bytes text ++ rest).head? = some byte
      rw [encoded]
      rfl
    have present : ¬ (some byte).all (· == SEP) = true := fun same => plain (beq_iff_eq.mp same)
    rw [deserializeOption, next, starts, if_neg present, text_read whole placed ends]
    rfl

theorem field_read {value : Field kind} (filled : FieldFilled kind value)
    (whole : d.buf = front ++ (written kind value ++ rest))
    (placed : d.pos = front.length) (ends : rest.head?.all (· == SEP)) (last : kind = .bytes → rest = []) :
    deserializeField kind d = .ok (value, { d with pos := d.pos + (written kind value).length }) := by
  cases kind with
  | str => exact text_read whole placed ends
  | u64 =>
    change d.deserializeU64 = _
    rw [deserializeU64, word_read whole placed, written, to_bytes_length]
    exact congrArg (fun word => Except.ok (word, _)) UInt64.ofNat_toNat
  | i64 =>
    change d.deserializeI64 = _
    rw [deserializeI64, word_read whole placed, written, to_bytes_length]
    refine congrArg (fun word => Except.ok (word, _)) ?_
    rw [UInt64.ofNat_toNat]
    rfl
  | option => exact option_read filled whole placed ends
  | bytes =>
    have trail : d.buf.drop d.pos = value := by
      rw [whole, placed, drop_left, last rfl]
      exact append_nil value
    change Except.ok d.recordTrail = _
    rw [recordTrail, trail]
    rfl

variable {values : Tuple kinds}

theorem separated_head : (separated kinds values).head?.all (· == SEP) := by
  cases kinds with
  | nil => rfl
  | cons kind kinds => rfl

theorem next_element_later (whole : d.buf = front ++ SEP :: rest) (placed : d.pos = front.length)
    (started : 0 < d.record) : d.nextElement = some { d with pos := d.pos + 1, record := d.record + 1 } := by
  have inside : d.pos < d.buf.length := by
    rw [whole, placed, length_append, length_cons]
    omega
  rw [nextElement, if_neg (fun ended => absurd inside (Nat.not_lt.mpr ended.1)), recordStart]
  rw [if_pos ⟨.inr started, fun incomplete => absurd inside (Nat.not_lt.mpr incomplete.1)⟩]

theorem bytes_rest_last (last : Kind.bytes ∉ (kind :: kinds).dropLast) :
    (kind = .bytes → kinds = []) ∧ Kind.bytes ∉ kinds.dropLast := by
  cases kinds with
  | nil => exact ⟨fun _ => rfl, not_mem_nil⟩
  | cons other kinds =>
    rw [dropLast_cons_cons, mem_cons, not_or] at last
    exact ⟨fun same => absurd same.symm last.1, last.2⟩

def ReadsBack (size : Nat) (kinds : List Kind) (values : Tuple kinds) (d : Deserializer) : Prop :=
  ∃ done, visitTuple size kinds d = .ok (values, done) ∧ done.remaining = 0

theorem element_reads_back {size : Nat} {value : Field kind} {started : Deserializer} (front : Bytes)
    (starts : d.nextElement = some started) (filled : FieldFilled kind value) (last : kind = .bytes → kinds = [])
    (whole : started.buf = front ++ (written kind value ++ separated kinds values))
    (placed : started.pos = front.length)
    (rest : ReadsBack size kinds values { started with pos := started.pos + (written kind value).length }) :
    ReadsBack size (kind :: kinds) (value, values) d := by
  have alone : kind = .bytes → separated kinds values = [] := by
    intro same
    obtain rfl := last same
    rfl
  have read := field_read filled whole placed separated_head alone
  obtain ⟨done, visited, empty⟩ := rest
  refine ⟨done, ?_, empty⟩
  simp only [visitTuple, starts, read, visited, bind, Except.bind, pure, Except.pure]

theorem later_reads_back (size : Nat) (kinds : List Kind) (values : Tuple kinds) (filled : Filled kinds values)
    (last : Kind.bytes ∉ kinds.dropLast) (front : Bytes)
    (whole : d.buf = front ++ separated kinds values) (placed : d.pos = front.length) (started : 0 < d.record) :
    ReadsBack size kinds values d := by
  induction kinds generalizing d front with
  | nil =>
    refine ⟨d, rfl, ?_⟩
    rw [remaining, whole, placed, separated, append_nil, Nat.sub_self]
  | cons kind kinds ih =>
    obtain ⟨value, values⟩ := values
    have behind : d.buf = (front ++ [SEP]) ++ (written kind value ++ separated kinds values) := by
      rw [append_assoc]
      exact whole
    have behindPlaced : d.pos + 1 = (front ++ [SEP]).length := by
      rw [length_append, length_singleton, ← placed]
    have restWhole := behind.trans (append_assoc _ _ _).symm
    have restPlaced : d.pos + 1 + (written kind value).length = (front ++ [SEP] ++ written kind value).length := by
      rw [length_append, ← behindPlaced]
    have rest := ih values filled.2 (bytes_rest_last last).2 (d := ⟨d.buf, _, d.record + 1, d.seq⟩) _ restWhole restPlaced (Nat.succ_pos _)
    exact element_reads_back _ (next_element_later whole placed started) filled.1 (bytes_rest_last last).1 behind behindPlaced rest

theorem tuple_reads_back {shape : Shape} {tuple : Tuple shape.kinds} (filled : Filled shape.kinds tuple) :
    ReadsBack shape.kinds.length shape.kinds tuple ⟨serializeToVec shape tuple, 0, 0, shape.kinds.length⟩ := by
  obtain ⟨value, values⟩ := tuple
  rw [serialize_to_vec_eq]
  have first : nextElement ⟨written shape.first value ++ separated shape.rest values, 0, 0, shape.kinds.length⟩ =
      some ⟨written shape.first value ++ separated shape.rest values, 0, 1, shape.kinds.length⟩ := by
    simp [nextElement, recordStart]
  have rest := later_reads_back shape.kinds.length shape.rest values filled.2 (bytes_rest_last shape.bytesLast).2
    (d := ⟨_, _, 1, shape.kinds.length⟩) (written shape.first value) rfl rfl Nat.one_pos
  rw [← Nat.zero_add (written shape.first value).length] at rest
  exact element_reads_back [] first filled.1 (bytes_rest_last shape.bytesLast).1 rfl rfl rest

theorem tuples_round_trip (shape : Shape) (tuple : Tuple shape.kinds) (filled : Filled shape.kinds tuple) :
    fromSlice shape.kinds (serializeToVec shape tuple) = .ok tuple ∧
      (∃ done, deserializeTuple shape.kinds (serializeToVec shape tuple) = .ok (tuple, done) ∧ done.finished = true) ∧
      ∀ other : Tuple shape.kinds, Filled shape.kinds other → other ≠ tuple → serializeToVec shape other ≠ serializeToVec shape tuple := by
  have decodes : ∀ other : Tuple shape.kinds, Filled shape.kinds other →
    fromSlice shape.kinds (serializeToVec shape other) = .ok other := by
    intro other otherFilled
    obtain ⟨done, visited, _⟩ := tuple_reads_back otherFilled
    rw [fromSlice, deserializeTuple, visited]
    rfl
  refine ⟨decodes tuple filled, ?_, fun other otherFilled differ same => differ ?_⟩
  · obtain ⟨done, visited, empty⟩ := tuple_reads_back filled
    refine ⟨done, visited, ?_⟩
    rw [finished, empty]
    rfl
  · have decoded := decodes other otherFilled
    rw [same, decodes tuple filled] at decoded
    exact (Except.ok.inj decoded).symm

def mixedShape : Shape := ⟨.str, [.u64, .option, .i64, .option, .bytes], by decide⟩

def mixedTuple : Tuple mixedShape.kinds := ("", 65535, some "é", -1, none, [255, 0, 255], PUnit.unit)

theorem mixed_tuple_round_trips : serializeToVec mixedShape mixedTuple =
        [255, 0, 0, 0, 0, 0, 0, 255, 255, 255, 195, 169, 255, 255, 255, 255, 255, 255, 255, 255, 255, 255, 255, 255, 0, 255] ∧
      fromSlice mixedShape.kinds (serializeToVec mixedShape mixedTuple) = .ok mixedTuple := by
  have accented : "é" ≠ "" := by decide
  exact ⟨by decide +kernel, (tuples_round_trip mixedShape mixedTuple ⟨trivial, trivial, accented, trivial, trivial, trivial, trivial⟩).1⟩

end GaussMatrix.Database
