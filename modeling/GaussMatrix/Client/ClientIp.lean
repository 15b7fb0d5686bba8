import GaussMatrix.Library.IpText

namespace GaussMatrix.Client.ClientIp

open IpText List

inductive IpSource where
  | rightmostXForwardedFor
  | rightmostForwarded

-- A header value is read as text when its bytes are visible ASCII or tabs.
def toStr (value : Text) : Option Text := if value.all fun c => c = '\t' || ' ' ≤ c && c ≤ '~' then some value else none

def trimMatches (matched : Char → Bool) (text : Text) : Text := (text.dropWhile matched).rdropWhile matched

def trim : Text → Text := trimMatches Char.isWhitespace

def splitOnce (c : Char) (text : Text) : Option (Text × Text) :=
  if c ∈ text then some (text.takeWhile (· ≠ c), (text.dropWhile (· ≠ c)).tail) else none

def rsplitOnce (c : Char) (text : Text) : Option (Text × Text) :=
  (splitOnce c text.reverse).map fun cut => (cut.2.reverse, cut.1.reverse)

def parseForwardedFor (stanza : Text) : Option Ip := do
  let value ← (stanza.splitOn ';').findSome? fun part =>
    (splitOnce '=' part).bind fun cut => if (trim cut.1).map Char.toLower = "for".toList then some (trim cut.2) else none
  let forValue := trimMatches (· = '"') value
  let bracketed := if forValue.head? = some '[' then (splitOnce ']' forValue.tail).map Prod.fst else none
  parseIp (trim ((bracketed.or ((rsplitOnce ':' forValue).map Prod.fst)).getD forValue))

def IpSource.parse : IpSource → Text → Option Ip
  | .rightmostXForwardedFor, entry => parseIp (trim entry)
  | .rightmostForwarded, entry => parseForwardedFor entry

def IpSource.header : IpSource → String
  | .rightmostXForwardedFor => "x-forwarded-for"
  | .rightmostForwarded => "forwarded"

def secureExtract (source : IpSource) (headers : String → List Text) : Option Ip :=
  ((((headers source.header).filterMap toStr).flatMap (·.splitOn ',')).filterMap source.parse).getLast?

def Ends (values : List Text) (last : Text) : Prop :=
  ∃ value before, values.getLast? = some value ∧ toStr value = some value ∧ value.splitOn ',' = before ++ [last]

theorem extract_last {source : IpSource} {headers : String → List Text} {last : Text} {ip : Ip}
    (ends : Ends (headers source.header) last)
    (parsed : source.parse last = some ip) : secureExtract source headers = some ip := by
  obtain ⟨value, before, final, readable, split⟩ := ends
  obtain ⟨front, values⟩ := getLast?_eq_some_iff.mp final
  simp [secureExtract, values, readable, split, parsed]

def named (source : IpSource) (address : String) : Text :=
  match source with
  | .rightmostXForwardedFor => address.toList
  | .rightmostForwarded => ("for=" ++ address).toList

-- A request whose header is the address, a comma and the last entry.
def behind (source : IpSource) (address : String) (last : Text) : String → List Text :=
  fun _ => [named source address ++ ',' :: last]

section

variable {source : IpSource} {address : String} {last : Text}
  (plain : toStr (named source address) = some (named source address))
  (whole : ',' ∉ named source address) (readable : toStr last = some last) (single : ',' ∉ last)

include plain whole readable single

theorem behind_split : toStr (named source address ++ ',' :: last) = some (named source address ++ ',' :: last) ∧
    (named source address ++ ',' :: last).splitOn ',' = [named source address, last] := by
  constructor
  · simp only [toStr, Option.ite_none_right_eq_some, all_append, all_cons, Bool.and_eq_true] at plain readable ⊢
    exact ⟨⟨plain.1, by decide, readable.1⟩, trivial⟩
  · have apart : ∀ text : Text, ',' ∉ text → ∀ c ∈ text, (c == ',') = false :=
      fun text absent c member => beq_false_of_ne fun same => absent (same ▸ member)
    rw [splitOn, splitOnP_append_cons_of_forall_mem (apart _ whole) ',' rfl, splitOnP_eq_singleton (apart _ single)]

theorem behind_ends : Ends (behind source address last source.header) last :=
  ⟨_, [named source address], rfl, (behind_split plain whole readable single).1,
    (behind_split plain whole readable single).2⟩

theorem behind_extract (unnamed : source.parse last = none) :
    secureExtract source (behind source address last) = source.parse (named source address) := by
  obtain ⟨read, split⟩ := behind_split plain whole readable single
  simp only [secureExtract, behind, filterMap_cons, filterMap_nil, read, flatMap_cons, flatMap_nil, append_nil,
    split, unnamed]
  cases source.parse (named source address) <;> rfl

end

def spoofed (entry rest : String) : String → List Text := fun _ => [(entry ++ ", " ++ rest).toList]

end GaussMatrix.Client.ClientIp
