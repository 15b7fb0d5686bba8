import GaussMatrix.Sending.EduScans

namespace GaussMatrix.Sending.Edus

open Collections List Option Runs Std Store ExtTreeMap

variable {scan : ReceiptScan} {mark count rank : Nat} {user : UserId} {data : ReceiptData}
  {edu : BTreeMap RoomId ReceiptMap} {update : PresenceUpdate} {ranks : Option Ranks} {more : Nat}

section

variable {changes : Changes} {sel next : Selection}

inductive Moves (changes : Changes) (sel : Selection) : Act → Selection → Prop where
  | device (row : Row Unit) (rest : List (Row Unit)) (reading : sel.devices.rows = row :: rest) :
      Moves changes sel .device
        { sel with
          maxEduCount := max sel.maxEduCount row.count
          devices := (sel.devices.read sel.eventsLen row rest).1
          eventsLen := (sel.devices.read sel.eventsLen row rest).2 }
  | receipt (room : RoomId) (row : Row (Option ReceiptData)) (rest : List (Row (Option ReceiptData))) (scanning : sel.ranks = none)
      (listed : room ∈ changes.serverRooms) (reading : (sel.rooms room).rows = row :: rest) :
      Moves changes sel (.receipt room)
        { sel with
          maxEduCount := max sel.maxEduCount row.count
          rooms := Function.update sel.rooms room ((sel.rooms room).read changes sel.num row rest).1
          num := ((sel.rooms room).read changes sel.num row rest).2 }
  | pivot (scanning : sel.ranks = none) (read : ∀ room ∈ changes.serverRooms, (sel.rooms room).rows = []) :
      Moves changes sel .pivot { sel with ranks := some ⟨receiptRanks changes sel.rooms, []⟩ }
  | ranked (edu : BTreeMap RoomId ReceiptMap) (pending sent : List (BTreeMap RoomId ReceiptMap)) (held : sel.ranks = some ⟨edu :: pending, sent⟩)
      (slot : sel.eventsLen < EDU_LIMIT) :
      Moves changes sel .rank { sel with eventsLen := sel.eventsLen + 1, ranks := some ⟨pending, sent ++ [edu]⟩ }
  | unranked (edu : BTreeMap RoomId ReceiptMap) (pending sent : List (BTreeMap RoomId ReceiptMap)) (held : sel.ranks = some ⟨edu :: pending, sent⟩)
      (full : ¬ sel.eventsLen < EDU_LIMIT) :
      Moves changes sel .rank { sel with eventsLen := sel.eventsLen + 1, ranks := some ⟨[], sent⟩ }
  | presence (row : Row (Option PresenceContent)) (rest : List (Row (Option PresenceContent))) (scanning : sel.presenceEdu = none)
      (reading : sel.presence.rows = row :: rest) :
      Moves changes sel .presence { sel with maxEduCount := max sel.maxEduCount row.count, presence := sel.presence.read changes row rest }
  | absent (scanning : sel.presenceEdu = none) (read : sel.presence.rows = []) (empty : sel.presence.presenceUpdates.isEmpty = true) :
      Moves changes sel .presenceEnd { sel with presenceEdu := some none }
  | pushed (scanning : sel.presenceEdu = none) (read : sel.presence.rows = []) (nonempty : sel.presence.presenceUpdates.isEmpty = false)
      (slot : sel.eventsLen < EDU_LIMIT) :
      Moves changes sel .presenceEnd { sel with eventsLen := sel.eventsLen + 1, presenceEdu := some (some (presencePush sel)) }
  | unpushed (scanning : sel.presenceEdu = none) (read : sel.presence.rows = []) (nonempty : sel.presence.presenceUpdates.isEmpty = false)
      (full : ¬ sel.eventsLen < EDU_LIMIT) :
      Moves changes sel .presenceEnd { sel with eventsLen := sel.eventsLen + 1, presenceEdu := some none }

theorem presence_end_moves (scanning : sel.presenceEdu = none) (read : sel.presence.rows = []) :
    Moves changes sel .presenceEnd (presenceResult sel) := by
  rw [presenceResult]
  split
  case isTrue empty => exact .absent scanning read empty
  case isFalse nonempty =>
    rw [Bool.not_eq_true] at nonempty
    split
    case isTrue slot => exact .pushed scanning read nonempty slot
    case isFalse full => exact .unpushed scanning read nonempty full

theorem step_moves {act : Act} (stepped : step changes sel act = some next) : Moves changes sel act next := by
  cases act with
  | device =>
    rw [step, stepDevice] at stepped
    split at stepped
    next => cases stepped
    next row rest reading =>
      cases stepped
      exact .device row rest reading
  | receipt room =>
    obtain ⟨enabled, stepped⟩ := ite_none_right_eq_some.mp stepped
    rw [Bool.and_eq_true, isNone_iff_eq_none, decide_eq_true_eq] at enabled
    rw [stepReceipt] at stepped
    split at stepped
    next => cases stepped
    next row rest reading =>
      cases stepped
      exact .receipt room row rest enabled.1 enabled.2 reading
  | pivot =>
    obtain ⟨enabled, same⟩ := ite_none_right_eq_some.mp stepped
    rw [Bool.and_eq_true, isNone_iff_eq_none, List.all_eq_true] at enabled
    cases same
    exact .pivot enabled.1 fun room listed => List.isEmpty_iff.mp (enabled.2 room listed)
  | rank =>
    obtain ⟨ranks, held, stepped⟩ := bind_eq_some_iff.mp stepped
    rw [stepRank.eq_def] at stepped
    split at stepped
    next => cases stepped
    next edu pending sent =>
      cases stepped
      split
      case isTrue slot => exact .ranked edu pending sent held slot
      case isFalse full => exact .unranked edu pending sent held full
  | presence =>
    obtain ⟨enabled, stepped⟩ := ite_none_right_eq_some.mp stepped
    rw [stepPresence] at stepped
    split at stepped
    next => cases stepped
    next row rest reading =>
      cases stepped
      exact .presence row rest (isNone_iff_eq_none.mp enabled) reading
  | presenceEnd =>
    obtain ⟨enabled, same⟩ := ite_none_right_eq_some.mp stepped
    rw [Bool.and_eq_true, isNone_iff_eq_none, List.isEmpty_iff] at enabled
    cases same
    exact presence_end_moves enabled.1 enabled.2

theorem moves_mark {act : Act} (moves : Moves changes sel act next) : sel.maxEduCount ≤ next.maxEduCount := by
  cases moves with
  | device row rest reading => exact le_max_left _ _
  | receipt room row rest scanning listed reading => exact le_max_left _ _
  | presence row rest scanning reading => exact le_max_left _ _
  | _ => exact le_rfl

structure Sound (changes : Changes) (sel : Selection) : Prop where
  bounded : sel.maxEduCount ≤ max changes.since changes.sinceUpper
  devices : ∀ row ∈ sel.devices.rows, ∃ room ∈ changes.serverRooms, row ∈ roomKeysChanged changes room ∧
    changes.userIsLocal row.user = true
  noted : ∀ user ∈ sel.devices.events, user ∈ sel.devices.deviceListChanges
  rooms : ∀ room, (sel.rooms room).Sound changes room sel.maxEduCount
  scanning : sel.ranks = none → changes.allowOutgoingReadReceipts = true
  left : ∀ room, (sel.rooms room).left ≠ [] → changes.allowOutgoingReadReceipts = true
  ranks : ∀ ranks, sel.ranks = some ranks → ranks.sent ++ ranks.pending <+: receiptRanks changes sel.rooms
  pending : ∀ ranks, sel.ranks = some ranks → ranks.pending ≠ [] → changes.allowOutgoingReadReceipts = true
  presence : sel.presence.Sound changes sel.maxEduCount
  made : ∀ push, sel.presenceEdu = some (some push) → push = presencePush sel
  presenceScanning : sel.presenceEdu = none → changes.allowOutgoingPresence = true
  presenceLeft : sel.presence.left ≠ [] → changes.allowOutgoingPresence = true

theorem begin_sound : Sound changes (begin changes) where
  bounded := le_max_left _ _
  devices := by
    intro row member
    obtain ⟨room, listed, filtered⟩ := mem_flatMap.mp member
    exact ⟨room, listed, (mem_filter.mp filtered).1, (mem_filter.mp filtered).2⟩
  noted := fun user member => absurd member not_mem_nil
  rooms := fun room => receipt_scanned.mpr ⟨[], scanned_begin, fun user => by rw [begin, getElem?_empty]; rfl⟩
  scanning := by
    intro scanning
    by_contra off
    rw [begin, if_neg off] at scanning
    cases scanning
  left := fun room => absurd rfl
  ranks := by
    intro ranks held
    rw [begin] at held
    split at held
    case isTrue => cases held
    case isFalse =>
      cases held
      exact nil_prefix
  pending := by
    intro ranks held some
    by_contra off
    rw [begin, if_neg off] at held
    cases held
    exact some rfl
  presence := by
    refine presence_scanned.mpr ⟨[], scanned_begin, fun user update held => ?_⟩
    cases held
  made := by
    intro push held
    by_cases on : changes.allowOutgoingPresence = true
    · rw [begin, if_pos on] at held
      cases held
    · rw [begin, if_neg on] at held
      cases held
  presenceScanning := by
    intro scanning
    by_contra off
    rw [begin, if_neg off] at scanning
    cases scanning
  presenceLeft := absurd rfl

theorem receipt_sound_mono {room : RoomId} (sound : scan.Sound changes room mark) (grows : mark ≤ more) :
    scan.Sound changes room more := by
  obtain ⟨read, scanned, users⟩ := receipt_scanned.mp sound
  exact receipt_scanned.mpr ⟨read, scanned_mono scanned grows, users⟩

theorem presence_sound_mono {scan : PresenceScan} (sound : scan.Sound changes mark) (grows : mark ≤ more) :
    scan.Sound changes more := by
  obtain ⟨read, scanned, users⟩ := presence_scanned.mp sound
  exact presence_scanned.mpr ⟨read, scanned_mono scanned grows, users⟩

theorem receipt_window {room : RoomId} {row : Row (Option ReceiptData)} (sound : scan.Sound changes room mark)
    (member : row ∈ scan.rows ++ scan.left) : row ∈ readreceiptsSince changes room := by
  obtain ⟨read, scanned, -⟩ := receipt_scanned.mp sound
  exact scanned_after scanned member

theorem presence_window {scan : PresenceScan} {row : Row (Option PresenceContent)} (sound : scan.Sound changes mark)
    (member : row ∈ scan.rows ++ scan.left) : row ∈ presenceSince changes := by
  obtain ⟨read, scanned, -⟩ := presence_scanned.mp sound
  exact scanned_after scanned member

section

variable (sound : Sound changes sel)

include sound

theorem raised_bounded (within : count ≤ changes.sinceUpper) :
    max sel.maxEduCount count ≤ max changes.since changes.sinceUpper := by
  have bounded := sound.bounded
  omega

theorem device_moves_sound (moves : Moves changes sel .device next) : Sound changes next := by
  cases moves with
  | device row rest reading =>
    obtain ⟨room, listed, window, -⟩ := sound.devices row (reading ▸ mem_cons_self)
    exact { sound with
      bounded := raised_bounded sound (rows_since_within window)
      devices := fun other member => sound.devices other (reading ▸ mem_cons_of_mem row (device_rows other member))
      noted := device_noted sound.noted
      rooms := fun room => receipt_sound_mono (sound.rooms room) (le_max_left _ _)
      presence := presence_sound_mono sound.presence (le_max_left _ _) }

theorem receipt_moves_sound {room : RoomId} (moves : Moves changes sel (.receipt room) next) : Sound changes next := by
  cases moves with
  | receipt room row rest scanning listed reading =>
    have window : row ∈ readreceiptsSince changes room := receipt_window (sound.rooms room) (reading ▸ mem_append_left _ mem_cons_self)
    exact { sound with
      bounded := raised_bounded sound (rows_since_within window)
      rooms := by
        intro other
        dsimp only
        by_cases same : other = room
        · subst same
          rw [Function.update_self]
          exact receipt_sound reading (sound.rooms other)
        · rw [Function.update_of_ne same]
          exact receipt_sound_mono (sound.rooms other) (le_max_left _ _)
      left := fun _ _ => sound.scanning scanning
      ranks := by
        intro ranks held
        exact absurd (scanning.symm.trans held) (by simp)
      pending := fun _ _ _ => sound.scanning scanning
      presence := presence_sound_mono sound.presence (le_max_left _ _) }

theorem presence_moves_sound (moves : Moves changes sel .presence next) : Sound changes next := by
  cases moves with
  | presence row rest scanning reading =>
    have window : row ∈ presenceSince changes := presence_window sound.presence (reading ▸ mem_append_left _ mem_cons_self)
    exact { sound with
      bounded := raised_bounded sound (presence_since_member.mp window).2.2
      rooms := fun room => receipt_sound_mono (sound.rooms room) (le_max_left _ _)
      presence := presence_sound reading sound.presence
      made := fun push held => absurd (scanning.symm.trans held) (by simp)
      presenceLeft := fun _ => sound.presenceScanning scanning }

theorem moves_sound {act : Act} (moves : Moves changes sel act next) : Sound changes next := by
  cases moves with
  | device row rest reading => exact device_moves_sound sound (.device row rest reading)
  | receipt room row rest scanning listed reading =>
    exact receipt_moves_sound sound (.receipt room row rest scanning listed reading)
  | pivot scanning read =>
    refine { sound with scanning := fun scanning => absurd scanning (by simp), ranks := fun ranks held => ?_, pending := fun _ _ _ => sound.scanning scanning }
    cases held
    exact prefix_refl _
  | ranked edu pending sent held slot =>
    refine { sound with
      scanning := fun scanning => absurd scanning (by simp)
      ranks := fun ranks same => ?_
      pending := fun _ _ _ => sound.pending _ held (cons_ne_nil _ _) }
    cases same
    rw [append_assoc]
    exact sound.ranks _ held
  | unranked edu pending sent held full =>
    refine { sound with
      scanning := fun scanning => absurd scanning (by simp)
      ranks := fun ranks same => ?_
      pending := fun _ _ _ => sound.pending _ held (cons_ne_nil _ _) }
    cases same
    rw [append_nil]
    exact (prefix_append sent (edu :: pending)).trans (sound.ranks ⟨edu :: pending, sent⟩ held)
  | presence row rest scanning reading => exact presence_moves_sound sound (.presence row rest scanning reading)
  | absent scanning read empty =>
    exact { sound with made := fun push held => absurd held (by simp), presenceScanning := fun scanning => absurd scanning (by simp) }
  | pushed scanning read nonempty slot =>
    refine { sound with made := fun push held => ?_, presenceScanning := fun scanning => absurd scanning (by simp) }
    cases held
    rfl
  | unpushed scanning read nonempty full =>
    exact { sound with made := fun push held => absurd held (by simp), presenceScanning := fun scanning => absurd scanning (by simp) }

end

variable {rooms : RoomId → ReceiptScan} {room : RoomId} {row : Row (Option ReceiptData)}
  {receipts : BTreeMap RoomId ReceiptMap}

def Shown (receipts : BTreeMap RoomId ReceiptMap) (room : RoomId) (row : Row (Option ReceiptData)) : Prop :=
  (receipts[room]?.bind fun map => map[row.user]?) = row.body

theorem user_rank {byUser : BTreeMap UserId (List ReceiptData)} :
    (byUser[user]?.bind fun datas => datas[rank]?) = (byUser[user]?.getD [])[rank]? := by
  cases byUser[user]? <;> rfl

theorem ranks_shown (listed : room ∈ changes.serverRooms) (held : (receiptRanks changes rooms)[rank]? = some receipts)
    (user : UserId) : (receipts[room]?.bind fun map => map[user]?) = ((rooms room).byUser[user]?.getD [])[rank]? := by
  rw [pivot_ranks_receipt held, if_pos listed, user_rank]

theorem gathered_shown (listed : room ∈ changes.serverRooms) (body : row.body = some data)
    (member : data ∈ (rooms room).byUser[row.user]?.getD []) :
    ∃ receipts ∈ receiptRanks changes rooms, Shown receipts room row := by
  obtain ⟨rank, held⟩ := List.getElem?_of_mem member
  have long : rank < (receiptRanks changes rooms).length := pivot_ranks_long listed (user_rank.trans held)
  have found := List.getElem?_eq_getElem long
  refine ⟨_, mem_of_getElem? found, ?_⟩
  rw [Shown, ranks_shown listed found, held, body]

theorem shown_gathered (listed : room ∈ changes.serverRooms) (body : row.body = some data)
    (member : receipts ∈ receiptRanks changes rooms) (shown : Shown receipts room row) :
    data ∈ (rooms room).byUser[row.user]?.getD [] := by
  obtain ⟨rank, held⟩ := List.getElem?_of_mem member
  rw [Shown, ranks_shown listed held, body] at shown
  exact mem_of_getElem? shown

theorem unranked_lost (apart : Apart changes) (sound : Sound changes sel)
    {pending sent : List (BTreeMap RoomId ReceiptMap)} (held : sel.ranks = some ⟨edu :: pending, sent⟩) :
    ∃ room ∈ changes.serverRooms, ∃ row ∈ readreceiptsSince changes room, (localReceipt changes row).isSome = true ∧
    row.count ≤ sel.maxEduCount ∧
      ∀ receipts ∈ sent, ¬ Shown receipts room row := by
  have before := sound.ranks _ held
  dsimp only at before
  have long : sent.length < (receiptRanks changes sel.rooms).length := by
    have shorter := before.length_le
    rw [length_append, length_cons] at shorter
    omega
  obtain ⟨room, listed, user, data, found⟩ := pivot_ranks_full long
  rw [user_rank] at found
  obtain ⟨read, scanned, users⟩ := receipt_scanned.mp (sound.rooms room)
  have member := mem_of_getElem? found
  rw [users, gathered_member] at member
  obtain ⟨row, inRead, rfl, due⟩ := member
  refine ⟨room, listed, row, scanned_read scanned inRead, isSome_of_eq_some due, scanned.counts row inRead,
    fun receipts inSent shown => ?_⟩
  obtain ⟨rank, inside, at'⟩ := getElem_of_mem inSent
  have earlier : (receiptRanks changes sel.rooms)[rank]? = some receipts := by
    obtain ⟨others, whole⟩ := before
    rw [← whole, append_assoc, List.getElem?_append_left inside, List.getElem?_eq_getElem inside, at']
  rw [Shown, ranks_shown listed earlier, local_receipt_body due] at shown
  have bound := (List.getElem?_eq_some_iff.mp shown).1
  have same : rank = sent.length :=
    (List.getElem?_inj bound (gathered_nodup apart (sound.rooms room) row.user)).mp (shown.trans found.symm)
  omega

variable {act : Act} {change : Change}

def receiptAlive (rooms : RoomId → ReceiptScan) (room : RoomId) (row : Row (Option ReceiptData)) : Option Ranks → Prop
  | none => (rooms room).Alive row
  | some ranks => ∃ receipts ∈ ranks.sent ++ ranks.pending, Shown receipts room row

def presenceAlive (changes : Changes) (scan : PresenceScan) (row : Row (Option PresenceContent)) :
    Option (Option (List PresenceUpdate)) → Prop
  | none => scan.Alive changes row
  | some edu =>
    ∃ push, edu = some push ∧ ∃ newer ∈ changes.presences.rows, newer.user = row.user ∧ row.count ≤ newer.count ∧
    ∃ update ∈ push, visiblePresence changes newer = some update

def Alive (changes : Changes) (sel : Selection) : Change → Prop
  | .device _ row => sel.devices.Alive row.user
  | .receipt room row => receiptAlive sel.rooms room row sel.ranks
  | .presence row => presenceAlive changes sel.presence row sel.presenceEdu

def Left (sel : Selection) : Change → Prop
  | .device .. => False
  | .receipt room row => row ∈ (sel.rooms room).left
  | .presence row => row ∈ sel.presence.left

def Kept (changes : Changes) (sel : Selection) : Prop :=
  ∀ change, Entitled changes change → changes.since < change.count → change.count ≤ changes.sinceUpper →
    Alive changes sel change ∨ Left sel change ∧ sel.maxEduCount < change.count

theorem clear_left (clear : Clear changes sel count) (entitled : Entitled changes change) (left : Left sel change) :
    count < change.count := by
  cases change with
  | device room row => exact left.elim
  | receipt room row => exact clear.1 room entitled.2.1 row left entitled.2.2.2
  | presence row => exact clear.2 row left entitled.2.2

theorem kept_raised (clear : Clear changes sel count) (entitled : Entitled changes change)
    (kept : Alive changes sel change ∨ Left sel change ∧ sel.maxEduCount < change.count) :
    Alive changes sel change ∨ Left sel change ∧ max sel.maxEduCount count < change.count := by
  refine kept.imp_right fun ⟨left, above⟩ => ⟨left, ?_⟩
  have below := clear_left clear entitled left
  omega

theorem receipt_alive_elsewhere {place : RoomId} (different : place ≠ room) (rooms : RoomId → ReceiptScan)
    (scan : ReceiptScan) (row : Row (Option ReceiptData)) (ranks : Option Ranks) :
    receiptAlive (Function.update rooms room scan) place row ranks = receiptAlive rooms place row ranks := by
  cases ranks with
  | none => rw [receiptAlive, receiptAlive, Function.update_of_ne different]
  | some ranks => rfl

theorem device_moves_kept (kept : Kept changes sel) (met : Meets changes sel .device)
    (moves : Moves changes sel .device next) : Kept changes next := by
  cases moves with
  | device row rest reading =>
    intro change entitled after within
    obtain ⟨slot, clear⟩ := met row (by rw [reading]; rfl)
    have raised := kept_raised clear entitled (kept change entitled after within)
    cases change with
    | device room other => exact raised.imp_left (device_kept reading slot)
    | receipt room other => exact raised
    | presence other => exact raised

theorem receipt_moves_kept (sound : Sound changes sel) (kept : Kept changes sel)
    (met : Meets changes sel (.receipt room)) (moves : Moves changes sel (.receipt room) next) : Kept changes next := by
  cases moves with
  | receipt room row rest scanning listed reading =>
    intro change entitled after within
    obtain ⟨clear, cuts⟩ := met row (by rw [reading]; rfl)
    have raised := kept_raised clear entitled (kept change entitled after within)
    cases change with
    | device _ other => exact raised
    | presence other => exact raised
    | receipt place other =>
      by_cases same : place = room
      · subst same
        rw [Alive, scanning] at raised
        rw [Alive, scanning, Left]
        dsimp only [receiptAlive] at raised ⊢
        rw [Function.update_self]
        rcases raised with alive | ⟨left, -⟩
        · refine (receipt_kept reading entitled.2.2.2 alive).imp_right fun ⟨inRest, left, due, cut⟩ => ⟨left, ?_⟩
          have above := cuts due cut other (by rw [reading]; exact inRest) entitled.2.2.2
          obtain ⟨read, scanned, -⟩ := receipt_scanned.mp (sound.rooms place)
          exact Nat.max_lt.mpr ⟨above, scanned_later (receipts_ascending changes place) scanned reading inRest⟩
        · exact (receipt_left left reading (sound.rooms place)).elim
      · rw [Alive, Left] at raised ⊢
        dsimp only
        rwa [receipt_alive_elsewhere same, Function.update_of_ne same]

theorem presence_moves_kept (sound : Sound changes sel) (kept : Kept changes sel) (met : Meets changes sel .presence)
    (moves : Moves changes sel .presence next) : Kept changes next := by
  cases moves with
  | presence row rest scanning reading =>
    intro change entitled after within
    obtain ⟨clear, cuts⟩ := met row (by rw [reading]; rfl)
    have raised := kept_raised clear entitled (kept change entitled after within)
    cases change with
    | device _ other => exact raised
    | receipt room other => exact raised
    | presence other =>
      rw [Alive, scanning] at raised
      rw [Alive, scanning]
      rcases raised with alive | ⟨left, -⟩
      · have window : other ∈ presenceSince changes := presence_since_member.mpr ⟨entitled.2.1, after, within⟩
        refine (presence_kept sound.presence reading window entitled.2.2 alive).imp_right fun ⟨inRest, left, update, found, cut⟩ => ⟨left, ?_⟩
        have above := cuts update found cut other (by rw [reading]; exact inRest) entitled.2.2
        obtain ⟨read, scanned, -⟩ := presence_scanned.mp sound.presence
        exact Nat.max_lt.mpr ⟨above, scanned_later presence_ascending scanned reading inRest⟩
      · exact (presence_left left reading sound.presence).elim

theorem push_member (held : sel.presence.presenceUpdates[user]? = some update) : update ∈ presencePush sel :=
  List.mem_map.mpr ⟨(user, update), mem_toList_iff_getElem?_eq_some.mpr held, rfl⟩

theorem presence_ended {row : Row (Option PresenceContent)} (read : sel.presence.rows = [])
    (alive : sel.presence.Alive changes row) :
    ∃ newer ∈ changes.presences.rows, newer.user = row.user ∧ row.count ≤ newer.count ∧
      ∃ update, visiblePresence changes newer = some update ∧ sel.presence.presenceUpdates[row.user]? = some update := by
  rcases alive with waiting | later
  · rw [read] at waiting
    exact absurd waiting not_mem_nil
  · exact later

theorem ranks_kept (kept : Kept changes sel) {eventsLen : Nat}
    (shown : ∀ room row, Entitled changes (.receipt room row) → receiptAlive sel.rooms room row sel.ranks →
    receiptAlive sel.rooms room row ranks) : Kept changes { sel with eventsLen := eventsLen, ranks := ranks } := by
  intro change entitled after within
  have before := kept change entitled after within
  cases change with
  | device room row => exact before
  | presence row => exact before
  | receipt room row => exact before.imp_left (shown room row entitled)

variable {edu : Option (List PresenceUpdate)}

theorem end_kept (kept : Kept changes sel) (scanning : sel.presenceEdu = none) {eventsLen : Nat}
    (made : ∀ row, sel.presence.Alive changes row → presenceAlive changes sel.presence row (some edu)) :
    Kept changes { sel with eventsLen := eventsLen, presenceEdu := some edu } := by
  intro change entitled after within
  have before := kept change entitled after within
  cases change with
  | device room row => exact before
  | receipt room row => exact before
  | presence row =>
    rw [Alive, scanning] at before
    exact before.imp_left (made row)

theorem moves_kept (sound : Sound changes sel) (kept : Kept changes sel) (met : Meets changes sel act)
    (moves : Moves changes sel act next) : Kept changes next := by
  cases moves with
  | device row rest reading => exact device_moves_kept kept met (.device row rest reading)
  | receipt room row rest scanning listed reading =>
    exact receipt_moves_kept sound kept met (.receipt room row rest scanning listed reading)
  | pivot scanning read =>
    refine ranks_kept kept fun room row entitled alive => ?_
    rw [scanning] at alive
    rcases alive with waiting | ⟨data, member, body⟩
    · rw [read room entitled.2.1] at waiting
      exact absurd waiting not_mem_nil
    · exact gathered_shown entitled.2.1 body member
  | ranked edu pending sent held slot =>
    refine ranks_kept kept fun room row entitled alive => ?_
    rw [held] at alive
    rw [receiptAlive, append_assoc]
    exact alive
  | unranked edu pending sent held full => exact absurd met full
  | presence row rest scanning reading => exact presence_moves_kept sound kept met (.presence row rest scanning reading)
  | absent scanning read empty =>
    refine end_kept kept scanning fun row alive => ?_
    obtain ⟨newer, -, -, -, update, -, held⟩ := presence_ended read alive
    rw [isEmpty_iff.mp empty, getElem?_empty] at held
    cases held
  | pushed scanning read nonempty slot =>
    refine end_kept kept scanning fun row alive => ?_
    obtain ⟨newer, stored, same, older, update, found, held⟩ := presence_ended read alive
    exact ⟨presencePush sel, rfl, newer, stored, same, older, update, push_member held, found⟩
  | unpushed scanning read nonempty full => exact absurd (met nonempty) full

variable {eventsLen : Nat}

def Good (changes : Changes) (sel : Selection) : Prop :=
  ∀ change, Entitled changes change → changes.since < change.count → change.count ≤ sel.maxEduCount →
    Alive changes sel change

theorem push_source (sound : Sound changes sel) (member : update ∈ presencePush sel)
    {row : Row (Option PresenceContent)}
    (found : visiblePresence changes row = some update) : sel.presence.presenceUpdates[row.user]? = some update := by
  obtain ⟨⟨user, held⟩, listed, rfl⟩ := List.mem_map.mp member
  have stored := mem_toList_iff_getElem?_eq_some.mp listed
  obtain ⟨read, -, users⟩ := presence_scanned.mp sound.presence
  obtain ⟨earlier, -, own, visible⟩ := users user held stored
  have same : user = row.user := own.symm.trans ((visible_user visible).symm.trans (visible_user found))
  rwa [← same]

theorem left_dead (apart : Apart changes) (sound : Sound changes sel) (entitled : Entitled changes change)
    (left : Left sel change) : ¬ Alive changes sel change := by
  cases change with
  | device room row => exact left.elim
  | receipt room row =>
    rw [Alive]
    cases held : sel.ranks with
    | none => exact receipt_left_dead apart (sound.rooms room) left
    | some ranks =>
      rintro ⟨receipts, member, shown⟩
      obtain ⟨data, due⟩ := isSome_iff_exists.mp entitled.2.2.2
      have gathered := shown_gathered entitled.2.1 (local_receipt_body due) ((sound.ranks ranks held).mem member) shown
      exact receipt_left_ungathered apart (sound.rooms room) left (local_receipt_body due) gathered
  | presence row =>
    rw [Alive]
    cases held : sel.presenceEdu with
    | none => exact presence_left_dead apart sound.presence left
    | some edu =>
      rintro ⟨push, rfl, newer, -, same, -, update, member, found⟩
      have stored := push_source sound (sound.made push held ▸ member) found
      rw [same, presence_left_absent apart sound.presence left] at stored
      cases stored

theorem ranks_back (entitled : Entitled changes change)
    (shown : ∀ room row, Entitled changes (.receipt room row) → receiptAlive sel.rooms room row ranks →
    receiptAlive sel.rooms room row sel.ranks)
    (alive : Alive changes { sel with eventsLen := eventsLen, ranks := ranks } change) : Alive changes sel change := by
  cases change with
  | device room row => exact alive
  | presence row => exact alive
  | receipt room row => exact shown room row entitled alive

theorem end_back (made : ∀ row, presenceAlive changes sel.presence row (some edu) →
    presenceAlive changes sel.presence row sel.presenceEdu) (alive :
    Alive changes { sel with eventsLen := eventsLen, presenceEdu := some edu } change) : Alive changes sel change := by
  cases change with
  | device room row => exact alive
  | receipt room row => exact alive
  | presence row => exact made row alive

section

variable (apart : Apart changes)

include apart

theorem moves_back (sound : Sound changes sel) (moves : Moves changes sel act next) (entitled : Entitled changes change)
    (after : changes.since < change.count) (within : change.count ≤ changes.sinceUpper)
    (alive : Alive changes next change) : Alive changes sel change := by
  cases moves with
  | device row rest reading =>
    cases change with
    | device room other => exact device_back reading alive
    | receipt room other => exact alive
    | presence other => exact alive
  | receipt room row rest scanning listed reading =>
    cases change with
    | device place other => exact alive
    | presence other => exact alive
    | receipt place other =>
      rw [Alive] at alive ⊢
      by_cases same : place = room
      · subst same
        rw [scanning] at alive ⊢
        dsimp only [receiptAlive] at alive ⊢
        rw [Function.update_self] at alive
        exact receipt_back apart (sound.rooms place) reading (rows_since_member entitled.2.2.1 after within) alive
      · rwa [receipt_alive_elsewhere same] at alive
  | pivot scanning read =>
    refine ranks_back entitled (fun room row entitled alive => ?_) alive
    obtain ⟨receipts, member, shown⟩ := alive
    obtain ⟨data, due⟩ := isSome_iff_exists.mp entitled.2.2.2
    rw [scanning]
    exact .inr ⟨data, shown_gathered entitled.2.1 (local_receipt_body due) member shown, local_receipt_body due⟩
  | ranked edu pending sent held slot =>
    refine ranks_back entitled (fun room row _ alive => ?_) alive
    rw [receiptAlive, append_assoc] at alive
    rw [held]
    exact alive
  | unranked edu pending sent held full =>
    refine ranks_back entitled (fun room row _ alive => ?_) alive
    obtain ⟨receipts, member, shown⟩ := alive
    rw [append_nil] at member
    rw [held]
    exact ⟨receipts, mem_append_left _ member, shown⟩
  | presence row rest scanning reading =>
    cases change with
    | device room other => exact alive
    | receipt room other => exact alive
    | presence other =>
      rw [Alive, scanning] at alive ⊢
      exact presence_back apart sound.presence reading (presence_since_member.mpr ⟨entitled.2.1, after, within⟩) alive
  | absent scanning read empty =>
    refine end_back (fun row alive => ?_) alive
    obtain ⟨push, none, -⟩ := alive
    cases none
  | pushed scanning read nonempty slot =>
    refine end_back (fun row alive => ?_) alive
    obtain ⟨push, made, newer, stored, same, older, update, member, found⟩ := alive
    cases made
    rw [scanning]
    exact .inr ⟨newer, stored, same, older, update, found, same ▸ push_source sound member found⟩
  | unpushed scanning read nonempty full =>
    refine end_back (fun row alive => ?_) alive
    obtain ⟨push, none, -⟩ := alive
    cases none

theorem good_back (sound : Sound changes sel) (moves : Moves changes sel act next) (good : Good changes next) :
    Good changes sel := by
  intro change entitled after below
  have bounded := sound.bounded
  exact moves_back apart sound moves entitled after (by omega)
    (good change entitled after (Nat.le_trans below (moves_mark moves)))

variable (counted : changes.since + 1 < 2 ^ 64) (sound : Sound changes sel)

include counted sound

theorem clear_of_good (good : Good changes next) (soundNext : Sound changes next) (raised : count ≤ next.maxEduCount)
    (left : ∀ change, Left sel change → Left next change) : Clear changes sel count := by
  refine ⟨fun room listed row member due => ?_, fun row member due => ?_⟩
  · by_contra reached
    have window := receipt_window (sound.rooms room) (mem_append_right _ member)
    have entitled : Entitled changes (.receipt room row) :=
      ⟨sound.left room (ne_nil_of_mem member), listed, rows_since_sublist.mem window, due⟩
    exact left_dead apart soundNext entitled (left _ member)
      (good _ entitled (rows_since_after counted window) (Nat.le_trans (Nat.le_of_not_lt reached) raised))
  · by_contra reached
    have window := presence_since_member.mp (presence_window sound.presence (mem_append_right _ member))
    have entitled : Entitled changes (.presence row) := ⟨sound.presenceLeft (ne_nil_of_mem member), window.1, due⟩
    exact left_dead apart soundNext entitled (left _ member) (good _ entitled window.2.1 (Nat.le_trans (Nat.le_of_not_lt reached) raised))

theorem device_meets (moves : Moves changes sel .device next) (good : Good changes next) :
    Meets changes sel .device := by
  have soundNext := moves_sound sound moves
  cases moves with
  | device row rest reading =>
    intro first head
    rw [reading] at head
    cases head
    refine ⟨fun new => ?_, clear_of_good apart counted sound good soundNext (le_max_right _ _) fun change left => ?_⟩
    · by_contra full
      obtain ⟨room, listed, window, own⟩ := sound.devices row (reading ▸ mem_cons_self)
      refine device_refused sound.noted new (Nat.le_of_not_lt full)
        (good (.device room row) ⟨listed, rows_since_sublist.mem window, own⟩ ?_ (le_max_right _ _))
      exact rows_since_after counted window
    · cases change with
      | device room other => exact left
      | receipt room other => exact left
      | presence other => exact left

theorem receipt_meets (moves : Moves changes sel (.receipt room) next) (good : Good changes next) :
    Meets changes sel (.receipt room) := by
  have soundNext := moves_sound sound moves
  cases moves with
  | receipt room row rest scanning listed reading =>
    intro first head
    rw [reading] at head
    cases head
    refine ⟨clear_of_good apart counted sound good soundNext (le_max_right _ _) fun change left => ?_,
      fun due cuts later member dueLater => ?_⟩
    · cases change with
      | device place other => exact left
      | presence other => exact left
      | receipt place other =>
        by_cases same : place = room
        · subst same
          exact (receipt_left left reading (sound.rooms place)).elim
        · rw [Left]
          dsimp only
          rwa [Function.update_of_ne same]
    · by_contra reached
      rw [reading] at member
      have window := receipt_window (sound.rooms room) (reading ▸ mem_append_left _ (mem_cons_of_mem row member))
      have entitled : Entitled changes (.receipt room later) := ⟨sound.scanning scanning, listed, rows_since_sublist.mem window, dueLater⟩
      refine left_dead apart soundNext entitled ?_
        (good _ entitled (rows_since_after counted window) (Nat.le_trans (Nat.le_of_not_lt reached) (le_max_left _ _)))
      rw [Left]
      dsimp only
      rw [Function.update_self, receipt_cut_left due cuts]
      exact member

theorem presence_meets (moves : Moves changes sel .presence next) (good : Good changes next) :
    Meets changes sel .presence := by
  have soundNext := moves_sound sound moves
  cases moves with
  | presence row rest scanning reading =>
    intro first head
    rw [reading] at head
    cases head
    refine ⟨clear_of_good apart counted sound good soundNext (le_max_right _ _) fun change left => ?_,
      fun update found cuts later member due => ?_⟩
    · cases change with
      | device place other => exact left
      | receipt place other => exact left
      | presence other => exact (presence_left left reading sound.presence).elim
    · by_contra reached
      rw [reading] at member
      have window := presence_since_member.mp (presence_window sound.presence (reading ▸ mem_append_left _ (mem_cons_of_mem row member)))
      have entitled : Entitled changes (.presence later) := ⟨sound.presenceScanning scanning, window.1, due⟩
      refine left_dead apart soundNext entitled ?_ (good _ entitled window.2.1 (Nat.le_trans (Nat.le_of_not_lt reached) (le_max_left _ _)))
      rw [Left]
      dsimp only
      rw [presence_cut_left found cuts]
      exact member

theorem unranked_bad {edu : BTreeMap RoomId ReceiptMap} {pending sent : List (BTreeMap RoomId ReceiptMap)}
    (held : sel.ranks = some ⟨edu :: pending, sent⟩) :
    ¬ Good changes { sel with eventsLen := eventsLen, ranks := some ⟨[], sent⟩ } := by
  intro good
  obtain ⟨room, listed, row, window, due, below, unsent⟩ := unranked_lost apart sound held
  have entitled : Entitled changes (.receipt room row) :=
    ⟨sound.pending _ held (cons_ne_nil _ _), listed, rows_since_sublist.mem window, due⟩
  obtain ⟨receipts, member, shown⟩ := good _ entitled (rows_since_after counted window) below
  rw [append_nil] at member
  exact unsent receipts member shown

end

theorem unpushed_bad (sound : Sound changes sel) (scanning : sel.presenceEdu = none)
    (nonempty : sel.presence.presenceUpdates.isEmpty = false) :
    ¬ Good changes { sel with eventsLen := eventsLen, presenceEdu := some none } := by
  intro good
  obtain ⟨user, update, held⟩ : ∃ user update, sel.presence.presenceUpdates[user]? = some update := by
    by_contra absent
    have empty : sel.presence.presenceUpdates = ∅ := by
      refine ext_getElem? fun user => ?_
      exact eq_none_iff_forall_ne_some.mpr fun update held => absent ⟨user, update, held⟩
    rw [empty] at nonempty
    simp at nonempty
  obtain ⟨read, scanned, users⟩ := presence_scanned.mp sound.presence
  obtain ⟨row, member, -, found⟩ := users user update held
  have window := presence_since_member.mp (scanned_read scanned member)
  obtain ⟨push, none, -⟩ := good (.presence row) ⟨sound.presenceScanning scanning, window.1, isSome_of_eq_some found⟩
    window.2.1 (scanned.counts row member)
  cases none

theorem moves_meets (apart : Apart changes) (counted : changes.since + 1 < 2 ^ 64) (sound : Sound changes sel)
    (moves : Moves changes sel act next) (good : Good changes next) : Meets changes sel act := by
  cases moves with
  | device row rest reading => exact device_meets apart counted sound (.device row rest reading) good
  | receipt room row rest scanning listed reading =>
    exact receipt_meets apart counted sound (.receipt room row rest scanning listed reading) good
  | pivot scanning read => trivial
  | ranked edu pending sent held slot => exact slot
  | unranked edu pending sent held full => exact absurd good (unranked_bad apart counted sound held)
  | presence row rest scanning reading =>
    exact presence_meets apart counted sound (.presence row rest scanning reading) good
  | absent scanning read empty => exact fun nonempty => absurd (empty.symm.trans nonempty) (by simp)
  | pushed scanning read nonempty slot => exact fun _ => slot
  | unpushed scanning read nonempty full => exact absurd good (unpushed_bad sound scanning nonempty)

def Offered (changes : Changes) : Change → Prop
  | .device _ row => row ∈ (begin changes).devices.rows
  | .receipt room row => (begin changes).ranks = none ∧ row ∈ ((begin changes).rooms room).rows
  | .presence row => (begin changes).presenceEdu = none ∧ row ∈ (begin changes).presence.rows

theorem entitled_offered (entitled : Entitled changes change) (after : changes.since < change.count)
    (within : change.count ≤ changes.sinceUpper) : Offered changes change := by
  cases change with
  | device room row =>
    exact mem_flatMap.mpr ⟨room, entitled.1, mem_filter.mpr ⟨rows_since_member entitled.2.1 after within, entitled.2.2⟩⟩
  | receipt room row => exact ⟨if_pos entitled.1, rows_since_member entitled.2.2.1 after within⟩
  | presence row => exact ⟨if_pos entitled.1, presence_since_member.mpr ⟨entitled.2.1, after, within⟩⟩

theorem begin_kept : Kept changes (begin changes) := by
  intro change entitled after within
  have offered := entitled_offered entitled after within
  cases change with
  | device room row => exact .inl (.inr ⟨not_mem_nil, row, offered, rfl⟩)
  | receipt room row =>
    rw [Alive, offered.1]
    exact .inl (.inl offered.2)
  | presence row =>
    rw [Alive, offered.1]
    exact .inl (.inl offered.2)

theorem selected_device : .deviceListUpdate user ∈ selected sel ↔ user ∈ sel.devices.events := by
  simp [selected]

theorem selected_receipt : .receipt receipts ∈ selected sel ↔ ∃ ranks, sel.ranks = some ranks ∧
    receipts ∈ ranks.sent := by
  cases held : sel.ranks with
  | none => simp [selected, held]
  | some ranks => simp [selected, held]

theorem selected_presence {push : List PresenceUpdate} :
    .presence push ∈ selected sel ↔ sel.presenceEdu = some (some push) := by
  cases held : sel.presenceEdu with
  | none => simp [selected, held]
  | some edu => cases edu <;> simp [selected, held, eq_comm]

theorem alive_represented (done : finished sel = true) :
    Alive changes sel change ↔ Represented changes (selected sel) change := by
  rw [finished, Bool.and_eq_true, Bool.and_eq_true, List.isEmpty_iff, Option.any_eq_true, isSome_iff_exists] at done
  obtain ⟨⟨rows, ranks, held, pending⟩, edu, made⟩ := done
  cases change with
  | device room row =>
    rw [Alive, Represented, DeviceScan.Alive, rows]
    constructor
    · rintro (listed | ⟨-, other, member, -⟩)
      · exact ⟨row.user, selected_device.mpr listed, rfl⟩
      · exact absurd member not_mem_nil
    · rintro ⟨user, listed, rfl⟩
      exact .inl (selected_device.mp listed)
  | receipt room row =>
    rw [Alive, Represented, held, receiptAlive, List.isEmpty_iff.mp pending, append_nil]
    constructor
    · rintro ⟨receipts, member, shown⟩
      exact ⟨receipts, selected_receipt.mpr ⟨ranks, held, member⟩, shown⟩
    · rintro ⟨receipts, listed, shown⟩
      obtain ⟨same, also, member⟩ := selected_receipt.mp listed
      cases held.symm.trans also
      exact ⟨receipts, member, shown⟩
  | presence row =>
    rw [Alive, Represented, made, presenceAlive]
    constructor
    · rintro ⟨push, rfl, newer⟩
      exact ⟨push, selected_presence.mpr made, newer⟩
    · rintro ⟨push, listed, newer⟩
      exact ⟨push, some.inj (made.symm.trans (selected_presence.mp listed)), newer⟩

variable {acts : List Act} {last : Selection}

theorem runs_sound (ran : runs (step changes) (begin changes) acts = some last) : Sound changes last :=
  runs_invariant (fun _ _ _ sound stepped => moves_sound sound (step_moves stepped)) begin_sound ran

theorem runs_kept (met : AllMeet (step changes) (Meets changes) (begin changes) acts)
    (ran : runs (step changes) (begin changes) acts = some last) : Kept changes last := by
  have preserved : ∀ state act next, (Sound changes state ∧ Kept changes state) → Meets changes state act →
    step changes state act = some next →
      Sound changes next ∧ Kept changes next := by
    intro state act next ⟨sound, kept⟩ met stepped
    exact ⟨moves_sound sound (step_moves stepped), moves_kept sound kept met (step_moves stepped)⟩
  have begins : Sound changes (begin changes) ∧ Kept changes (begin changes) := ⟨begin_sound, begin_kept⟩
  exact (runs_meeting_invariant preserved begins met ran).2

theorem runs_good (apart : Apart changes) (counted : changes.since + 1 < 2 ^ 64)
    (ran : runs (step changes) (begin changes) acts = some last) (good : Good changes last) :
    AllMeet (step changes) (Meets changes) (begin changes) acts := by
  have back : ∀ state act next, Sound changes state → step changes state act = some next → Good changes next →
    Good changes state ∧ Meets changes state act := by
    intro state act next sound stepped good
    exact ⟨good_back apart sound (step_moves stepped) good, moves_meets apart counted sound (step_moves stepped) good⟩
  exact (all_meet_of_last (fun _ _ _ sound stepped => moves_sound sound (step_moves stepped)) back
    begin_sound ran good).1

end

theorem watermark_skips_nothing (changes : Changes) (acts : List Act) (last : Selection)
    (ran : runs (step changes) (begin changes) acts = some last) (done : finished last = true) :
    (AllMeet (step changes) (Meets changes) (begin changes) acts →
      (∀ change, Entitled changes change → changes.since < change.count → change.count ≤ last.maxEduCount →
      Represented changes (selected last) change) ∧ ∀ change, Entitled changes change → changes.since < change.count →
      change.count ≤ changes.sinceUpper → ¬ Represented changes (selected last) change →
        ∀ upper, changes.sinceUpper ≤ upper → Offered { changes with since := last.maxEduCount, sinceUpper := upper } change) ∧
    (Apart changes → changes.since + 1 < 2 ^ 64 →
      (∀ change, Entitled changes change → changes.since < change.count → change.count ≤ last.maxEduCount →
        Represented changes (selected last) change) →
      AllMeet (step changes) (Meets changes) (begin changes) acts) := by
  have sound := runs_sound ran
  refine ⟨fun met => ?_, fun apart counted whole => ?_⟩
  · have represented : ∀ change, Entitled changes change → changes.since < change.count →
      change.count ≤ last.maxEduCount → Represented changes (selected last) change := by
      intro change entitled after below
      have bounded := sound.bounded
      rcases runs_kept met ran change entitled after (by omega) with alive | ⟨-, above⟩
      · exact (alive_represented done).mp alive
      · exact absurd below (Nat.not_le_of_lt above)
    refine ⟨represented, fun change entitled after within missing upper grows => ?_⟩
    have above : last.maxEduCount < change.count := Nat.lt_of_not_le fun below => missing (represented change entitled after below)
    have again : Entitled { changes with since := last.maxEduCount, sinceUpper := upper } change := by
      cases change <;> exact entitled
    exact entitled_offered again above (Nat.le_trans within grows)
  · exact runs_good apart counted ran fun change entitled after below => (alive_represented done).mpr (whole change entitled after below)

def sampleReceipt : Row (Option ReceiptData) := ⟨4, [97], some ⟨[36, 120], some 1700000000, []⟩⟩

def sampleChanges : Changes where
  serverRooms := [[33]]
  keysChanged := fun _ => ⟨[⟨3, [97], ()⟩], pairwise_singleton _ _⟩
  readReceipts := fun _ => ⟨[sampleReceipt], pairwise_singleton _ _⟩
  presences := ⟨[⟨5, [97], some ⟨.online, some true, none, none⟩⟩], pairwise_singleton _ _⟩
  userIsLocal := fun _ => true
  isJoined := fun _ _ => true
  allowOutgoingReadReceipts := true
  allowOutgoingPresence := true
  since := 2
  sinceUpper := 6

def sampleActs : List Act := [.presence, .device, .receipt [33], .pivot, .presenceEnd, .rank]

theorem sample_run : (runs (step sampleChanges) (begin sampleChanges) sampleActs).isSome = true := by decide +kernel

theorem sample_receipt_represented :
    Represented sampleChanges (selected ((runs (step sampleChanges) (begin sampleChanges) sampleActs).get sample_run))
    (.receipt [33] sampleReceipt) :=
  ((watermark_skips_nothing sampleChanges sampleActs _ (some_get sample_run).symm (by decide +kernel)).1
    (by decide +kernel)).1 (.receipt [33] sampleReceipt)
    ⟨rfl, mem_cons_self, mem_cons_self, rfl⟩ (by decide) (by decide +kernel)

def crowdedChanges : Changes where
  serverRooms := [[33]]
  keysChanged := fun _ => ⟨(List.range 101).map fun number => ⟨number + 1, [UInt8.ofNat number], ()⟩, by
    rw [pairwise_map]
    exact pairwise_lt_range.imp fun less => Nat.succ_lt_succ less⟩
  readReceipts := fun _ => ⟨[], List.Pairwise.nil⟩
  presences := ⟨[], List.Pairwise.nil⟩
  userIsLocal := fun _ => true
  isJoined := fun _ _ => true
  allowOutgoingReadReceipts := true
  allowOutgoingPresence := true
  since := 0
  sinceUpper := 101

def crowdedActs : List Act := List.replicate 101 .device ++ [.pivot, .presenceEnd]

theorem crowded_result : ((runs (step crowdedChanges) (begin crowdedChanges) crowdedActs).map fun last =>
    (finished last, last.maxEduCount, decide ([100] ∈ last.devices.events))) = some
    (true, 101, false) := by decide +kernel

theorem crowded_run : (runs (step crowdedChanges) (begin crowdedChanges) crowdedActs).isSome = true := by
  obtain ⟨last, ran, _⟩ := map_eq_some_iff.mp crowded_result
  exact isSome_of_eq_some ran

theorem crowded_change_skipped :
    finished ((runs (step crowdedChanges) (begin crowdedChanges) crowdedActs).get crowded_run) = true ∧
    Entitled crowdedChanges (.device [33] ⟨101, [100], ()⟩) ∧
      crowdedChanges.since < 101 ∧
      ((runs (step crowdedChanges) (begin crowdedChanges) crowdedActs).get crowded_run).maxEduCount = 101 ∧
      ¬ Represented crowdedChanges (selected ((runs (step crowdedChanges) (begin crowdedChanges) crowdedActs).get
      crowded_run)) (.device [33] ⟨101, [100], ()⟩) := by
  obtain ⟨last, ran, result⟩ := map_eq_some_iff.mp crowded_result
  simp only [Prod.mk.injEq, decide_eq_false_iff_not] at result
  obtain ⟨done, mark, unlisted⟩ := result
  rw [get_of_eq_some crowded_run ran]
  refine ⟨done, ⟨mem_cons_self, by decide +kernel, rfl⟩, by decide, mark, ?_⟩
  rintro ⟨user, listed, rfl⟩
  exact unlisted (selected_device.mp listed)

end GaussMatrix.Sending.Edus
