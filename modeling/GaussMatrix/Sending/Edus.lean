import GaussMatrix.Library.Runs
import GaussMatrix.Sending.Receipts

namespace GaussMatrix.Sending.Edus

open Collections Runs Store

inductive PresenceState where
  | offline
  | online
  | unavailable
  | custom (name : Bytes)
deriving DecidableEq

structure PresenceContent where
  presence : PresenceState
  currentlyActive : Option Bool
  statusMsg : Option Bytes
  lastActiveAgo : Option Nat
deriving DecidableEq

structure PresenceUpdate where
  userId : UserId
  presence : PresenceState
  currentlyActive : Bool
  statusMsg : Option Bytes
  lastActiveAgo : Nat

inductive Edu where
  | deviceListUpdate (user : UserId)
  | receipt (receipts : BTreeMap RoomId ReceiptMap)
  | presence (push : List PresenceUpdate)

structure Row (A : Type) where
  count : Nat
  user : UserId
  body : A
deriving DecidableEq

structure Table (A : Type) where
  rows : List (Row A)
  ascending : rows.Pairwise fun row later => row.count < later.count

-- A receipt or a presence without a body is one that does not parse.
structure Changes where
  serverRooms : List RoomId
  keysChanged : RoomId → Table Unit
  readReceipts : RoomId → Table (Option ReceiptData)
  presences : Table (Option PresenceContent)
  userIsLocal : UserId → Bool
  isJoined : UserId → RoomId → Bool
  allowOutgoingReadReceipts : Bool
  allowOutgoingPresence : Bool
  since : Nat
  sinceUpper : Nat

def EDU_LIMIT : Nat := 100

def SELECT_RECEIPT_LIMIT : Nat := 256

def SELECT_PRESENCE_LIMIT : Nat := 256

section

variable {A : Type} (changes : Changes)

def rowsSince (table : Table A) : List (Row A) :=
  (table.rows.dropWhile fun row => decide (row.count < min (changes.since + 1) (2 ^ 64 - 1))).takeWhile fun row =>
    decide (row.count ≤ changes.sinceUpper)

def roomKeysChanged (room : RoomId) : List (Row Unit) := rowsSince changes (changes.keysChanged room)

def readreceiptsSince (room : RoomId) : List (Row (Option ReceiptData)) := rowsSince changes (changes.readReceipts room)

def presenceSince : List (Row (Option PresenceContent)) :=
  changes.presences.rows.filter fun row => decide (changes.since < row.count) && decide (row.count ≤ changes.sinceUpper)

def serverSeesUser (user : UserId) : Bool := changes.serverRooms.any fun room => changes.isJoined user room

def localReceipt (row : Row (Option ReceiptData)) : Option ReceiptData :=
  if changes.userIsLocal row.user then row.body else none

def presenceUpdate (user : UserId) (content : PresenceContent) : PresenceUpdate :=
  ⟨user, content.presence, content.currentlyActive.getD false, content.statusMsg, content.lastActiveAgo.getD 0⟩

def visiblePresence (row : Row (Option PresenceContent)) : Option PresenceUpdate := if changes.userIsLocal row.user then
    if serverSeesUser changes row.user then row.body.map (presenceUpdate row.user) else none
  else none

structure DeviceScan where
  rows : List (Row Unit)
  deviceListChanges : List UserId
  events : List UserId

-- What a scan leaves behind when it stops at its limit is kept to be reasoned about.
structure ReceiptScan where
  rows : List (Row (Option ReceiptData))
  byUser : BTreeMap UserId (List ReceiptData)
  left : List (Row (Option ReceiptData))

structure PresenceScan where
  rows : List (Row (Option PresenceContent))
  presenceUpdates : BTreeMap UserId PresenceUpdate
  left : List (Row (Option PresenceContent))

structure Ranks where
  pending : List (BTreeMap RoomId ReceiptMap)
  sent : List (BTreeMap RoomId ReceiptMap)

def DeviceScan.read (scan : DeviceScan) (eventsLen : Nat) (row : Row Unit) (rest : List (Row Unit)) :
    DeviceScan × Nat :=
  if row.user ∈ scan.deviceListChanges then ({ scan with rows := rest }, eventsLen)
  else if EDU_LIMIT ≤ eventsLen then (⟨[], row.user :: scan.deviceListChanges, scan.events⟩, eventsLen + 1)
  else (⟨rest, row.user :: scan.deviceListChanges, scan.events ++ [row.user]⟩, eventsLen + 1)

def collectReceipt (byUser : BTreeMap UserId (List ReceiptData)) (user : UserId) (data : ReceiptData) :
    BTreeMap UserId (List ReceiptData) :=
  byUser.insert user (byUser[user]?.getD [] ++ [data])

-- Only a user that is new in the room counts, and the one too many is still taken.
def receiptCuts (scan : ReceiptScan) (num : Nat) (user : UserId) : Bool :=
  !scan.byUser.contains user && decide (SELECT_RECEIPT_LIMIT ≤ num)

def ReceiptScan.read (changes : Changes) (scan : ReceiptScan) (num : Nat) (row : Row (Option ReceiptData))
    (rest : List (Row (Option ReceiptData))) : ReceiptScan × Nat :=
  match localReceipt changes row with
  | none => ({ scan with rows := rest }, num)
  | some data =>
    (if receiptCuts scan num row.user then ⟨[], collectReceipt scan.byUser row.user data, rest⟩
      else { scan with rows := rest, byUser := collectReceipt scan.byUser row.user data },
    if scan.byUser.contains row.user then num else num + 1)

def presenceCuts (scan : PresenceScan) (user : UserId) (update : PresenceUpdate) : Bool :=
  decide (SELECT_PRESENCE_LIMIT ≤ (scan.presenceUpdates.insert user update).size)

def PresenceScan.read (changes : Changes) (scan : PresenceScan) (row : Row (Option PresenceContent))
    (rest : List (Row (Option PresenceContent))) : PresenceScan :=
  match visiblePresence changes row with
  | none => { scan with rows := rest }
  | some update =>
    if presenceCuts scan row.user update then ⟨[], scan.presenceUpdates.insert row.user update, rest⟩
    else { scan with rows := rest, presenceUpdates := scan.presenceUpdates.insert row.user update }

end

-- The selectors run side by side. The ranks are there once all rooms have been read, the presence EDU once all presence
-- has.
structure Selection where
  maxEduCount : Nat
  eventsLen : Nat
  num : Nat
  devices : DeviceScan
  rooms : RoomId → ReceiptScan
  ranks : Option Ranks
  presence : PresenceScan
  presenceEdu : Option (Option (List PresenceUpdate))

inductive Act where
  | device
  | receipt (room : RoomId)
  | pivot
  | rank
  | presence
  | presenceEnd

variable (changes : Changes)

def begin : Selection where
  maxEduCount := changes.since
  eventsLen := 0
  num := 0
  devices := ⟨changes.serverRooms.flatMap fun room => (roomKeysChanged changes room).filter fun row =>
    changes.userIsLocal row.user, [], []⟩
  rooms := fun room => ⟨readreceiptsSince changes room, ∅, []⟩
  ranks := if changes.allowOutgoingReadReceipts then none else some ⟨[], []⟩
  presence := ⟨presenceSince changes, ∅, []⟩
  presenceEdu := if changes.allowOutgoingPresence then none else some none

def receiptRanks (rooms : RoomId → ReceiptScan) : List (BTreeMap RoomId ReceiptMap) :=
  pivotRanks (rankedRooms changes.serverRooms fun room => (rooms room).byUser)

variable (sel : Selection)

def stepDevice : Option Selection :=
  match sel.devices.rows with
  | [] => none
  | row :: rest =>
    let (devices, eventsLen) := sel.devices.read sel.eventsLen row rest
    some { sel with maxEduCount := max sel.maxEduCount row.count, devices := devices, eventsLen := eventsLen }

def stepReceipt (room : RoomId) : Option Selection :=
  match (sel.rooms room).rows with
  | [] => none
  | row :: rest =>
    let (scan, num) := (sel.rooms room).read changes sel.num row rest
    some { sel with maxEduCount := max sel.maxEduCount row.count, rooms := Function.update sel.rooms room scan, num := num }

def stepRank : Ranks → Option Selection
  | ⟨[], _⟩ => none
  | ⟨edu :: pending, sent⟩ =>
    some { sel with eventsLen := sel.eventsLen + 1, ranks := some (if sel.eventsLen < EDU_LIMIT then ⟨pending, sent ++ [edu]⟩ else ⟨[], sent⟩) }

def stepPresence : Option Selection :=
  match sel.presence.rows with
  | [] => none
  | row :: rest =>
    some { sel with maxEduCount := max sel.maxEduCount row.count, presence := sel.presence.read changes row rest }

def presencePush : List PresenceUpdate := sel.presence.presenceUpdates.toList.map Prod.snd

def presenceResult : Selection :=
  if sel.presence.presenceUpdates.isEmpty then { sel with presenceEdu := some none }
  else { sel with
    eventsLen := sel.eventsLen + 1
    presenceEdu := some (if sel.eventsLen < EDU_LIMIT then some (presencePush sel) else none) }

def step : Act → Option Selection
  | .device => stepDevice sel
  | .receipt room =>
    if sel.ranks.isNone && decide (room ∈ changes.serverRooms) then stepReceipt changes sel room else none
  | .pivot =>
    if sel.ranks.isNone && changes.serverRooms.all fun room => (sel.rooms room).rows.isEmpty then
      some { sel with ranks := some ⟨receiptRanks changes sel.rooms, []⟩ }
    else none
  | .rank => sel.ranks.bind (stepRank sel)
  | .presence => if sel.presenceEdu.isNone then stepPresence changes sel else none
  | .presenceEnd => if sel.presenceEdu.isNone && sel.presence.rows.isEmpty then some (presenceResult sel) else none

def finished : Bool := sel.devices.rows.isEmpty && (sel.ranks.any fun ranks => ranks.pending.isEmpty) &&
    sel.presenceEdu.isSome

def selected : List Edu := sel.devices.events.map .deviceListUpdate ++ (sel.presenceEdu.join.map .presence).toList ++
    ((sel.ranks.map Ranks.sent).getD []).map .receipt

inductive Change where
  | device (room : RoomId) (row : Row Unit)
  | receipt (room : RoomId) (row : Row (Option ReceiptData))
  | presence (row : Row (Option PresenceContent))

def Change.count : Change → Nat
  | .device _ row => row.count
  | .receipt _ row => row.count
  | .presence row => row.count

def Entitled : Change → Prop
  | .device room row =>
    room ∈ changes.serverRooms ∧ row ∈ (changes.keysChanged room).rows ∧ changes.userIsLocal row.user = true
  | .receipt room row =>
    changes.allowOutgoingReadReceipts = true ∧ room ∈ changes.serverRooms ∧ row ∈ (changes.readReceipts room).rows ∧
    (localReceipt changes row).isSome = true
  | .presence row =>
    changes.allowOutgoingPresence = true ∧ row ∈ changes.presences.rows ∧ (visiblePresence changes row).isSome = true

def Represented (events : List Edu) : Change → Prop
  | .device _ row => ∃ user, .deviceListUpdate user ∈ events ∧ user = row.user
  | .receipt room row =>
    ∃ receipts, .receipt receipts ∈ events ∧ (receipts[room]?.bind fun map => map[row.user]?) = row.body
  | .presence row =>
    ∃ push, .presence push ∈ events ∧
      ∃ newer ∈ changes.presences.rows, newer.user = row.user ∧ row.count ≤ newer.count ∧
      ∃ update ∈ push, visiblePresence changes newer = some update

variable (sel : Selection)

def Clear (count : Nat) : Prop := (∀ room ∈ changes.serverRooms, ∀ row ∈ (sel.rooms room).left,
    (localReceipt changes row).isSome = true → count < row.count) ∧
    ∀ row ∈ sel.presence.left, (visiblePresence changes row).isSome = true → count < row.count

instance (count : Nat) : Decidable (Clear changes sel count) := inferInstanceAs (Decidable (_ ∧ _))

def Meets : Act → Prop
  | .device => ∀ row ∈ sel.devices.rows.head?, (row.user ∉ sel.devices.deviceListChanges → sel.eventsLen < EDU_LIMIT) ∧ Clear changes sel row.count
  | .receipt room =>
    ∀ row ∈ (sel.rooms room).rows.head?, Clear changes sel row.count ∧
    ((localReceipt changes row).isSome = true → receiptCuts (sel.rooms room) sel.num row.user = true →
        ∀ later ∈ (sel.rooms room).rows.tail, (localReceipt changes later).isSome = true → sel.maxEduCount < later.count)
  | .pivot => True
  | .rank => sel.eventsLen < EDU_LIMIT
  | .presence =>
    ∀ row ∈ sel.presence.rows.head?, Clear changes sel row.count ∧
    ∀ update ∈ visiblePresence changes row, presenceCuts sel.presence row.user update = true →
        ∀ later ∈ sel.presence.rows.tail, (visiblePresence changes later).isSome = true → sel.maxEduCount < later.count
  | .presenceEnd => sel.presence.presenceUpdates.isEmpty = false → sel.eventsLen < EDU_LIMIT

instance (act : Act) : Decidable (Meets changes sel act) := match act with
  | .device => inferInstanceAs (Decidable (∀ row ∈ sel.devices.rows.head?, _))
  | .receipt _ => inferInstanceAs (Decidable (∀ row ∈ List.head? _, _))
  | .pivot => inferInstanceAs (Decidable True)
  | .rank => inferInstanceAs (Decidable (_ < _))
  | .presence => inferInstanceAs (Decidable (∀ row ∈ List.head? _, _))
  | .presenceEnd => inferInstanceAs (Decidable (_ → _))

end GaussMatrix.Sending.Edus
