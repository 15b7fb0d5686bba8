import Mathlib

namespace GaussMatrix.IpText

open List Option

abbrev Text := List Char

inductive Ip where
  | v4 (bits : BitVec 32)
  | v6 (bits : BitVec 128)
deriving DecidableEq

inductive Cidr where
  | v4 (network : BitVec 32) (length : Nat)
  | v6 (network : BitVec 128) (length : Nat)

def Cidr.includes : Cidr → Ip → Bool
  | .v4 network length, .v4 bits => network >>> (32 - length) == bits >>> (32 - length)
  | .v6 network length, .v6 bits => network >>> (128 - length) == bits >>> (128 - length)
  | _, _ => false

section

def digit (base : Nat) (c : Char) : Option Nat :=
  let value := if '0' ≤ c ∧ c ≤ '9' then c.toNat - '0'.toNat
    else if 'a' ≤ c ∧ c ≤ 'f' then c.toNat - 'a'.toNat + 10
    else if 'A' ≤ c ∧ c ≤ 'F' then c.toNat - 'A'.toNat + 10
    else base
  if value < base then some value else none

def digits (base : Nat) : Nat → Text → Option Nat
  | value, [] => some value
  | value, c :: rest => (digit base c).bind fun next => digits base (value * base + next) rest

def number (base : Nat) (text : Text) : Option Nat := if text = [] then none else digits base 0 text

def parsePort (text : Text) : Option Nat := (number 10 text).filter (· < 2 ^ 16)

def parseOctet (text : Text) : Option Nat := if 1 < text.length ∧
    text.head? = some '0' then none else (number 10 text).filter (· < 256)

def parseV4 (text : Text) : Option (BitVec 32) :=
  match (text.splitOn '.').mapM parseOctet with
  | some [a, b, c, d] => some (BitVec.ofNat 32 (((a * 256 + b) * 256 + c) * 256 + d))
  | _ => none

def octets (bits : BitVec 32) : List Nat :=
  [bits.toNat / 2 ^ 24, bits.toNat / 2 ^ 16 % 256, bits.toNat / 2 ^ 8 % 256, bits.toNat % 256]

def showV4 (bits : BitVec 32) : Text := ['.'].intercalate ((octets bits).map (Nat.toDigits 10))

theorem octet_read : ∀ octet < 256, parseOctet (Nat.toDigits 10 octet) = some octet := by
  decide +kernel

theorem octet_digits {octet : Nat} {c : Char} (member : c ∈ Nat.toDigits 10 octet) :
    c ≠ '.' ∧ c ≠ ':' ∧ (digit 16 c).isSome := by
  have decimal := Nat.isDigit_of_mem_toDigits (by decide) (by decide) member
  rw [Char.isDigit_iff_toNat] at decimal
  refine ⟨?_, ?_, ?_⟩
  · rintro rfl
    exact absurd decimal (by decide)
  · rintro rfl
    exact absurd decimal (by decide)
  · have low : '0' ≤ c ∧ c ≤ '9' := decimal
    have high : c.toNat ≤ 57 := low.2
    simp [digit, low]
    omega

theorem octets_small {bits : BitVec 32} : ∀ octet ∈ octets bits, octet < 256 := by
  have bound := bits.isLt
  simp only [octets, mem_cons, not_mem_nil, or_false, forall_eq_or_imp, forall_eq]
  omega

theorem octets_parsed {values : List Nat} (small : ∀ value ∈ values, value < 256) :
    (values.map (Nat.toDigits 10)).mapM parseOctet = some values := by
  induction values with
  | nil => rfl
  | cons head tail ih =>
    rw [map_cons, mapM_cons, octet_read head (small head mem_cons_self), ih fun value member => small value (mem_cons_of_mem head member)]
    rfl

theorem parse_show_v4 (bits : BitVec 32) : parseV4 (showV4 bits) = some bits := by
  have bound := bits.isLt
  have pieces : (showV4 bits).splitOn '.' = (octets bits).map (Nat.toDigits 10) := by
    refine splitOn_intercalate '.' ?_ (by simp [octets])
    intro text member
    obtain ⟨octet, listed, rfl⟩ := mem_map.mp member
    exact fun dot => (octet_digits dot).1 rfl
  rw [parseV4, pieces, octets_parsed octets_small]
  simp only [octets, Option.some.injEq]
  apply BitVec.eq_of_toNat_eq
  rw [BitVec.toNat_ofNat]
  omega

def cutDouble : Text → Option (Text × Text)
  | [] => none
  | c :: rest =>
    if c = ':' ∧ rest.head? = some ':' then some ([], rest.tail) else (cutDouble rest).map fun cut =>
    (c :: cut.1, cut.2)

def parseGroup (text : Text) : Option (List Nat) := if text.length ≤ 4 then (number 16 text).map ([·]) else none

def parseLastGroup (text : Text) : Option (List Nat) :=
  match parseV4 text with
  | some bits => some [bits.toNat / 2 ^ 16, bits.toNat % 2 ^ 16]
  | none => parseGroup text

def parseGroups (last : Text → Option (List Nat)) : List Text → Option (List Nat)
  | [] => some []
  | [text] => last text
  | text :: rest => (parseGroup text).bind fun first => (parseGroups last rest).map (first ++ ·)

def pieces (text : Text) : List Text := if text = [] then [] else text.splitOn ':'

def joinGroups (groups : List Nat) : BitVec 128 := BitVec.ofNat 128 (groups.foldl (· * 2 ^ 16 + ·) 0)

def parseV6 (text : Text) : Option (BitVec 128) :=
  match cutDouble text with
  | none => ((parseGroups parseLastGroup (text.splitOn ':')).filter (·.length = 8)).map joinGroups
  | some (head, tail) =>
    (parseGroups parseGroup (pieces head)).bind fun front =>
      ((parseGroups parseLastGroup (pieces tail)).filter fun back => front.length + back.length < 8).map fun back =>
        joinGroups (front ++ List.replicate (8 - front.length - back.length) 0 ++ back)

def groupsOf (bits : BitVec 128) : List Nat :=
  (List.range 8).map fun place => bits.toNat / 2 ^ (16 * (7 - place)) % 2 ^ 16

def zerosAt (groups : List Nat) (place : Nat) : Nat := ((groups.drop place).takeWhile (· = 0)).length

def longestZeros (groups : List Nat) : Nat := (List.range groups.length).foldl
    (fun best place => if zerosAt groups best < zerosAt groups place then place else best) 0

def joinColons (groups : List Nat) : Text := [':'].intercalate (groups.map (Nat.toDigits 16))

def showV6 (bits : BitVec 128) : Text :=
  let groups := groupsOf bits
  if groups.take 6 = [0, 0, 0, 0, 0, 0xffff] then "::ffff:".toList ++ showV4 (bits.truncate 32)
  else
    let place := longestZeros groups
    let zeros := zerosAt groups place
    if 1 < zeros then joinColons (groups.take place) ++ "::".toList ++ joinColons (groups.drop (place + zeros)) else joinColons groups

end

def parseIp (text : Text) : Option Ip := if text.all fun c => (digit 16 c).isSome || c = '.' || c = ':' then
    if ':' ∈ text then (parseV6 text).map Ip.v6 else (parseV4 text).map Ip.v4
  else none

theorem bracket_refused {text : Text} (bracket : ']' ∈ text) : parseIp text = none := if_neg fun spelled =>
    absurd (List.all_eq_true.mp spelled ']' bracket) (by decide)

theorem show_v4_characters {bits : BitVec 32} : ∀ c ∈ showV4 bits, c = '.' ∨ c ≠ ':' ∧ (digit 16 c).isSome := by
  intro c member
  simp only [showV4, List.intercalate, octets, map_cons, map_nil, List.intersperse, flatten_cons, flatten_nil,
    append_nil, mem_append, mem_singleton] at member
  rcases member with digit | dot | digit | dot | digit | dot | digit
  all_goals first | exact .inl dot | exact .inr (octet_digits digit).2

theorem parse_show_ip_v4 (bits : BitVec 32) : parseIp (showV4 bits) = some (.v4 bits) := by
  have spelled : (showV4 bits).all fun c => (digit 16 c).isSome || c = '.' || c = ':' := by
    refine all_eq_true.mpr fun c member => ?_
    rcases show_v4_characters c member with rfl | ⟨-, hex⟩
    · decide
    · rw [hex]
      rfl
  have plain : ':' ∉ showV4 bits := fun member =>
    (show_v4_characters ':' member).elim (by decide) fun both => both.1 rfl
  rw [parseIp, if_pos spelled, if_neg plain, parse_show_v4]
  rfl

def parseSocket (text : Text) : Option (Ip × Nat) :=
  if text.head? = some '[' then
    let inner := text.tail.takeWhile (· ≠ ']')
    let port := text.tail.dropWhile (· ≠ ']')
    if port.take 2 = "]:".toList then (parseV6 inner).bind fun bits => (parsePort (port.drop 2)).map fun number =>
      (.v6 bits, number) else none
  else
    let port := text.dropWhile (· ≠ ':')
    if port = [] then none else (parseV4 (text.takeWhile (· ≠ ':'))).bind fun bits =>
      (parsePort port.tail).map fun number => (.v4 bits, number)

def showSocket : Ip → Nat → Text
  | .v4 bits, port => showV4 bits ++ ":".toList ++ Nat.toDigits 10 port
  | .v6 bits, port => "[".toList ++ showV6 bits ++ "]:".toList ++ Nat.toDigits 10 port

end GaussMatrix.IpText
