import GaussMatrix.Database.Keys
import GaussMatrix.Library.BigEndian
import GaussMatrix.Store.Backend

namespace GaussMatrix.Sending

open BigEndian Collections List Option SortedScan Store

-- Text never holds the byte that separates the parts of a key.
abbrev Plain := { name : Bytes // Database.SEP ∉ name }

abbrev ServerName := { name : Bytes // Database.SEP ∉ name ∧ name.head? ≠ some 43 ∧ name.head? ≠ some 36 }

abbrev RawPduId := { id : Bytes // id.length = 16 ∨ id.length = 24 }

abbrev EduBuf := { buf : Bytes // buf ≠ [] }

inductive Destination where
  | appservice (id : Plain)
  | push (user pushkey : Plain)
  | federation (server : ServerName)
deriving DecidableEq

inductive SendingEvent where
  | pdu (id : RawPduId)
  | edu (buf : EduBuf)
  | flush
deriving DecidableEq

def getPrefix : Destination → Bytes
  | .federation server => server.1 ++ [Database.SEP]
  | .appservice id => 43 :: (id.1 ++ [Database.SEP])
  | .push user pushkey => 36 :: (user.1 ++ Database.SEP :: (pushkey.1 ++ [Database.SEP]))

def eventValue : SendingEvent → Bytes
  | .edu buf => buf.1
  | .pdu _ | .flush => []

def keyEnd (count : Nat) : SendingEvent → Bytes
  | .pdu id => id.1
  | .edu _ | .flush => toBytes 8 count

def queueKey (dest : Destination) (event : SendingEvent) (count : Nat) : Bytes := getPrefix dest ++ keyEnd count event

def afterSeparator (bytes : Bytes) : Option Bytes := (bytes.dropWhile (· != Database.SEP)).tail?

def eventBytes : Bytes → Option Bytes
  | [] => afterSeparator []
  | sigil :: rest =>
    if sigil = 43 then afterSeparator rest
    else if sigil = 36 then (afterSeparator rest).bind afterSeparator
    else afterSeparator (sigil :: rest)

-- None is the panic on a row that does not parse.
def parseServercurrentevent (key value : Bytes) : Option SendingEvent := (eventBytes key).bind fun event =>
    if empty : value = [] then
      if known : event.length = 16 ∨ event.length = 24 then some (.pdu ⟨event, known⟩) else none
    else some (.edu ⟨value, empty⟩)

theorem after_separator_field {field : Bytes} (plain : Database.SEP ∉ field) {rest : Bytes} :
    afterSeparator (field ++ Database.SEP :: rest) = some rest := by
  rw [afterSeparator, dropWhile_append_of_pos (Database.record_byte_plain plain)]
  simp

theorem event_bytes_starts (dest : Destination) (rest : Bytes) : eventBytes (getPrefix dest ++ rest) = some rest := by
  cases dest with
  | appservice id =>
    rw [getPrefix, cons_append, append_assoc, eventBytes, if_pos rfl]
    exact after_separator_field id.2
  | push user pushkey =>
    rw [getPrefix, cons_append, append_assoc, eventBytes, if_neg (by decide), if_pos rfl]
    rw [cons_append, append_assoc, after_separator_field user.2, bind_some]
    exact after_separator_field pushkey.2
  | federation server =>
    obtain ⟨name, plain, notPlus, notDollar⟩ := server
    rw [getPrefix, append_assoc]
    cases name with
    | nil => exact after_separator_field plain
    | cons first more =>
      rw [cons_append, eventBytes, if_neg fun same => notPlus (congrArg some same), if_neg fun same => notDollar (congrArg some same)]
      exact after_separator_field plain

variable {event : SendingEvent} {count : Nat}

theorem parse_queue_key (queueable : event ≠ .flush) {dest : Destination} :
    parseServercurrentevent (queueKey dest event count) (eventValue event) = some event := by
  rw [parseServercurrentevent, queueKey, event_bytes_starts, bind_some]
  cases event with
  | pdu id => exact (dif_pos rfl).trans (dif_pos id.2)
  | edu buf => exact dif_neg buf.2
  | flush => exact absurd rfl queueable

theorem parsed_value {key value : Bytes} (parsed : parseServercurrentevent key value = some event) :
    eventValue event = value := by
  obtain ⟨bytes, _, decided⟩ := bind_eq_some_iff.mp parsed
  split at decided
  case isTrue empty =>
    split at decided
    case isTrue =>
      cases decided
      exact empty.symm
    case isFalse => cases decided
  case isFalse =>
    cases decided
    rfl

theorem federation_sigil {server : ServerName} {sigil : UInt8} {rest other : Bytes}
    (apart : server.1.head? ≠ some sigil) (notSep : sigil ≠ Database.SEP)
    (same : getPrefix (.federation server) ++ rest = sigil :: other) : False := by
  rw [getPrefix, append_assoc] at same
  cases named : server.1 with
  | nil =>
    rw [named] at same
    exact notSep (cons.inj same).1.symm
  | cons first more =>
    rw [named] at same apart
    exact apart (congrArg some (cons.inj same).1)

variable {dest other : Destination}

theorem prefix_injective {rest otherRest : Bytes} (same : getPrefix dest ++ rest = getPrefix other ++ otherRest) :
    dest = other ∧ rest = otherRest := by
  have rests : ∀ destination, dest = destination → other = destination → rest = otherRest := by
    rintro destination rfl rfl
    exact append_cancel_left same
  have dests : dest = other := by
    cases dest with
    | appservice id =>
      cases other with
      | appservice otherId =>
        rw [getPrefix, getPrefix, cons_append, cons_append, append_assoc, append_assoc] at same
        exact congrArg _ (Subtype.ext (separated_injective id.2 otherId.2 (cons.inj same).2).1)
      | push user pushkey => exact absurd (cons.inj same).1 (by decide)
      | federation server => exact (federation_sigil server.2.2.1 (by decide) same.symm).elim
    | push user pushkey =>
      cases other with
      | appservice otherId => exact absurd (cons.inj same).1 (by decide)
      | push otherUser otherPushkey =>
        rw [getPrefix, getPrefix, cons_append, cons_append, append_assoc, append_assoc, cons_append, cons_append] at same
        obtain ⟨users, tails⟩ := separated_injective user.2 otherUser.2 (cons.inj same).2
        rw [append_assoc, append_assoc] at tails
        have pushkeys := (separated_injective pushkey.2 otherPushkey.2 tails).1
        rw [Subtype.ext users, Subtype.ext pushkeys]
      | federation server => exact (federation_sigil server.2.2.2 (by decide) same.symm).elim
    | federation server =>
      cases other with
      | appservice otherId => exact (federation_sigil server.2.2.1 (by decide) same).elim
      | push user pushkey => exact (federation_sigil server.2.2.2 (by decide) same).elim
      | federation otherServer =>
        rw [getPrefix, getPrefix, append_assoc, append_assoc] at same
        exact congrArg _ (Subtype.ext (separated_injective server.2.1 otherServer.2.1 same).1)
  exact ⟨dests, rests other dests rfl⟩

theorem prefix_unique {key : Bytes} (own : getPrefix dest <+: key) (theirs : getPrefix other <+: key) :
    dest = other := by
  obtain ⟨rest, rfl⟩ := own
  obtain ⟨otherRest, same⟩ := theirs
  exact (prefix_injective same.symm).1

theorem queue_key_starts : getPrefix dest <+: queueKey dest event count := List.prefix_append _ _

theorem queue_key_event {another : SendingEvent} {otherCount : Nat} (queueable : event ≠ .flush)
    (otherQueueable : another ≠ .flush) (fits : count < 2 ^ 64) (otherFits : otherCount < 2 ^ 64)
    (same : queueKey dest event count = queueKey other another otherCount) :
    event = another ∨ (∃ buf, event = .edu buf) ∧ count = otherCount := by
  have tails := (prefix_injective same).2
  have width : ∀ n, (toBytes 8 n).length = 8 := to_bytes_length 8
  cases event with
  | flush => exact absurd rfl queueable
  | pdu id =>
    cases another with
    | flush => exact absurd rfl otherQueueable
    | pdu otherId => exact .inl (congrArg _ (Subtype.ext tails))
    | edu otherBuf =>
      have lengths := congrArg List.length tails
      have known := id.2
      rw [keyEnd, keyEnd, width] at lengths
      omega
  | edu buf =>
    cases another with
    | flush => exact absurd rfl otherQueueable
    | pdu otherId =>
      have lengths := congrArg List.length tails
      have known := otherId.2
      rw [keyEnd, keyEnd, width] at lengths
      omega
    | edu otherBuf =>
      have read : ofBytes (toBytes 8 count) = ofBytes (toBytes 8 otherCount) := congrArg ofBytes tails
      rw [of_to_bytes_of_lt fits, of_to_bytes_of_lt otherFits] at read
      exact .inr ⟨⟨buf, rfl⟩, read⟩

structure Tables where
  queued : DomainTree Bytes
  active : DomainTree Bytes

def deletePrefix (tree : DomainTree Bytes) (pfx : Bytes) : DomainTree Bytes :=
  eraseAll tree ((prefixScan tree pfx).map Prod.fst)

abbrev QueueItem := Bytes × SendingEvent

def parseRows (rows : List (Bytes × Bytes)) : Option (List QueueItem) :=
  rows.mapM fun row => (parseServercurrentevent row.1 row.2).map fun event => (row.1, event)

def markAsActive (tables : Tables) (items : List QueueItem) : Tables :=
  let keyed := items.filter fun item => item.1 ≠ []
  ⟨eraseAll tables.queued (keyed.map Prod.fst),
    extend tables.active (keyed.map fun item => (item.1, eventValue item.2))⟩

theorem delete_prefix_lookup (tree : DomainTree Bytes) (pfx key : Bytes) :
    (deletePrefix tree pfx)[key]? = if pfx <+: key then none else tree[key]? := by
  rw [deletePrefix, erase_all_lookup]
  by_cases inside : pfx <+: key
  · split
    · rfl
    · next absent =>
        refine eq_none_iff_forall_ne_some.mpr fun value held => absent ?_
        exact mem_map.mpr ⟨(key, value), (prefix_scan_row tree pfx (key, value)).mpr ⟨held, inside⟩, rfl⟩
  · rw [if_neg inside, if_neg]
    intro member
    obtain ⟨row, inScan, rfl⟩ := mem_map.mp member
    exact inside ((prefix_scan_row tree pfx row).mp inScan).2

theorem delete_prefix_held {tree : DomainTree Bytes} {pfx key value : Bytes}
    (held : (deletePrefix tree pfx)[key]? = some value) : tree[key]? = some value ∧ ¬ pfx <+: key := by
  rw [delete_prefix_lookup] at held
  split at held
  case isTrue => cases held
  case isFalse outside => exact ⟨held, outside⟩

theorem parse_rows_items {rows : List (Bytes × Bytes)} {items : List QueueItem} (parsed : parseRows rows = some items) :
    (∀ item ∈ items, ∃ value, (item.1, value) ∈ rows ∧ parseServercurrentevent item.1 value = some item.2) ∧
      ∀ row ∈ rows, ∃ event, parseServercurrentevent row.1 row.2 = some event ∧ (row.1, event) ∈ items := by
  induction rows generalizing items with
  | nil =>
    cases parsed
    exact ⟨by simp, by simp⟩
  | cons row rest ih =>
    rw [parseRows, mapM_cons] at parsed
    obtain ⟨first, read, later⟩ := bind_eq_some_iff.mp parsed
    obtain ⟨others, readOthers, same⟩ := bind_eq_some_iff.mp later
    cases same
    obtain ⟨event, found, rfl⟩ := map_eq_some_iff.mp read
    obtain ⟨fromRows, fromItems⟩ := ih readOthers
    rw [forall_mem_cons, forall_mem_cons]
    refine ⟨⟨⟨row.2, mem_cons_self, found⟩, fun item member => ?_⟩, ⟨event, found, mem_cons_self⟩, fun other member => ?_⟩
    · obtain ⟨value, inRows, isItem⟩ := fromRows item member
      exact ⟨value, mem_cons_of_mem row inRows, isItem⟩
    · obtain ⟨event, isEvent, inItems⟩ := fromItems other member
      exact ⟨event, isEvent, mem_cons_of_mem _ inItems⟩

def Stored (tables : Tables) (key value : Bytes) : Prop :=
  tables.queued[key]? = some value ∨ tables.active[key]? = some value

instance (tables : Tables) (key value : Bytes) : Decidable (Stored tables key value) :=
  inferInstanceAs (Decidable (_ ∨ _))

variable {tables : Tables} {items : List QueueItem} {key value : Bytes}

theorem mark_queued (held : (markAsActive tables items).queued[key]? = some value) :
    tables.queued[key]? = some value := by
  rw [markAsActive, erase_all_lookup] at held
  split at held
  case isTrue => cases held
  case isFalse => exact held

theorem mark_active (held : (markAsActive tables items).active[key]? = some value) :
    tables.active[key]? = some value ∨ ∃ item ∈ items, item.1 = key ∧ item.1 ≠ [] ∧ eventValue item.2 = value := by
  rcases extend_source held with inItems | before
  · obtain ⟨item, member, same⟩ := mem_map.mp inItems
    cases same
    obtain ⟨inItems, keyed⟩ := mem_filter.mp member
    exact .inr ⟨item, inItems, rfl, of_decide_eq_true keyed, rfl⟩
  · exact .inl before

theorem mark_active_item {item : QueueItem} (member : item ∈ items) (keyed : item.1 ≠ []) :
    ∃ held, (markAsActive tables items).active[item.1]? = some held := by
  have inFilter : item ∈ items.filter fun item => item.1 ≠ [] := mem_filter.mpr ⟨member, decide_eq_true keyed⟩
  obtain ⟨held, -, read⟩ := extend_present tables.active
    ⟨_, mem_map_of_mem inFilter, rfl⟩
  exact ⟨held, read⟩

theorem mark_keeps (stored : Stored tables key value) : ∃ held, Stored (markAsActive tables items) key held := by
  by_cases marked : ∃ item ∈ items, item.1 = key ∧ key ≠ []
  · obtain ⟨item, member, rfl, keyed⟩ := marked
    obtain ⟨held, read⟩ := mark_active_item member keyed
    exact ⟨held, .inr read⟩
  · have outside : ∀ item ∈ items.filter fun item => item.1 ≠ [], item.1 ≠ key := by
      intro item member same
      obtain ⟨inItems, keyed⟩ := mem_filter.mp member
      exact marked ⟨item, inItems, same, same ▸ of_decide_eq_true keyed⟩
    rcases stored with queued | active
    · refine ⟨value, .inl ?_⟩
      rw [markAsActive, erase_all_lookup, if_neg]
      · exact queued
      · intro member
        obtain ⟨item, inFilter, same⟩ := mem_map.mp member
        exact outside item inFilter same
    · refine ⟨value, .inr ?_⟩
      rw [markAsActive, extend_outside]
      · exact active
      · intro row member
        obtain ⟨item, inFilter, rfl⟩ := mem_map.mp member
        exact outside item inFilter

end GaussMatrix.Sending
