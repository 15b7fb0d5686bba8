import GaussMatrix.Sending.Edus

namespace GaussMatrix.Sending.Edus

open Collections List Option Runs Std.ExtTreeMap Store

section

variable {A : Type} {changes : Changes} {rows : List (Row A)} {table : Table A} {row : Row A} {bound : Nat}

theorem taken_below (ascending : rows.Pairwise fun row later => row.count < later.count) (member : row ∈ rows)
    (below : row.count ≤ bound) : row ∈ rows.takeWhile fun row => decide (row.count ≤ bound) := by
  induction rows with
  | nil => exact absurd member not_mem_nil
  | cons first rest ih =>
    obtain ⟨before, later⟩ := pairwise_cons.mp ascending
    rcases mem_cons.mp member with rfl | inRest
    · rw [takeWhile_cons, if_pos (decide_eq_true below)]
      exact mem_cons_self
    · have earlier := before row inRest
      rw [takeWhile_cons, if_pos (decide_eq_true (by omega))]
      exact mem_cons_of_mem first (ih later inRest)

theorem dropped_below (ascending : rows.Pairwise fun row later => row.count < later.count) :
    row ∈ rows.dropWhile (fun row => decide (row.count < bound)) ↔ row ∈ rows ∧ bound ≤ row.count := by
  induction rows with
  | nil => exact ⟨fun member => absurd member not_mem_nil, fun both => both.1⟩
  | cons first rest ih =>
    obtain ⟨before, later⟩ := pairwise_cons.mp ascending
    by_cases below : first.count < bound
    · rw [dropWhile_cons, if_pos (decide_eq_true below), ih later, mem_cons]
      refine ⟨fun both => ⟨.inr both.1, both.2⟩, fun both => ⟨both.1.resolve_left fun same => ?_, both.2⟩⟩
      rw [same] at both
      omega
    · rw [dropWhile_cons, if_neg (by simpa using below)]
      refine ⟨fun member => ⟨member, ?_⟩, fun both => both.1⟩
      rcases mem_cons.mp member with rfl | inRest
      · omega
      · have earlier := before row inRest
        omega

theorem rows_since_sublist : (rowsSince changes table).Sublist table.rows :=
  (List.takeWhile_sublist _).trans (List.dropWhile_sublist _)

theorem rows_since_member (member : row ∈ table.rows) (after : changes.since < row.count)
    (within : row.count ≤ changes.sinceUpper) : row ∈ rowsSince changes table := by
  refine taken_below (table.ascending.sublist (dropWhile_sublist _))
    ((dropped_below table.ascending).mpr ⟨member, ?_⟩) within
  omega

theorem rows_since_within (member : row ∈ rowsSince changes table) : row.count ≤ changes.sinceUpper := by
  have kept := mem_takeWhile_imp member
  exact of_decide_eq_true kept

theorem rows_since_after (room : changes.since + 1 < 2 ^ 64) (member : row ∈ rowsSince changes table) :
    changes.since < row.count := by
  have kept := ((dropped_below table.ascending).mp ((takeWhile_sublist _).mem member)).2
  omega

theorem presence_since_member {row : Row (Option PresenceContent)} :
    row ∈ presenceSince changes ↔ row ∈ changes.presences.rows ∧ changes.since < row.count ∧
    row.count ≤ changes.sinceUpper := by
  simp only [presenceSince, mem_filter, Bool.and_eq_true, decide_eq_true_eq]

end

section

variable {A : Type} {window read rows left rest more leftMore : List (Row A)} {mark : Nat} {row other : Row A}

structure Scanned (window : List (Row A)) (mark : Nat) (read rows left : List (Row A)) : Prop where
  split : window = read ++ (rows ++ left)
  counts : ∀ row ∈ read, row.count ≤ mark
  ends : left = [] ∨ rows = []

theorem scanned_begin : Scanned window mark [] window [] := ⟨(List.append_nil window).symm, forall_mem_nil _, .inl rfl⟩

section

variable (scanned : Scanned window mark read rows left)

include scanned

theorem scanned_mono {more : Nat} (grows : mark ≤ more) : Scanned window more read rows left :=
  ⟨scanned.split, fun row member => le_trans (scanned.counts row member) grows, scanned.ends⟩

theorem scanned_going (reading : rows = row :: rest) : left = [] :=
  scanned.ends.resolve_right (by rw [reading]; exact List.cons_ne_nil _ _)

theorem scanned_read (member : row ∈ read) : row ∈ window := scanned.split ▸ List.mem_append_left _ member

theorem scanned_after (member : row ∈ rows ++ left) : row ∈ window := scanned.split ▸ List.mem_append_right _ member

theorem scanned_head (reading : rows = row :: rest) : row ∈ window :=
  scanned_after scanned (reading ▸ List.mem_append_left _ List.mem_cons_self)

theorem scanned_next (reading : rows = row :: rest)
    (moved : (more = rest ∧ leftMore = left) ∨ (more = [] ∧ leftMore = rest)) :
    Scanned window (max mark row.count) (read ++ [row]) more leftMore := by
  have nothing := scanned_going scanned reading
  refine ⟨?_, fun other member => ?_, ?_⟩
  · rw [scanned.split, reading, nothing, append_nil, append_assoc, singleton_append]
    rcases moved with ⟨rfl, rfl⟩ | ⟨rfl, rfl⟩
    · rw [nothing, append_nil]
    · rw [nil_append]
  · rcases mem_append.mp member with before | last
    · exact le_trans (scanned.counts other before) (le_max_left _ _)
    · rw [mem_singleton.mp last]
      exact le_max_right _ _
  · rcases moved with ⟨-, rfl⟩ | ⟨rfl, -⟩
    · exact .inl nothing
    · exact .inr rfl

end

variable (ascending : window.Pairwise fun row later => row.count < later.count)

include ascending

theorem scanned_later (scanned : Scanned window mark read rows left) (reading : rows = row :: rest)
    (member : other ∈ rest) : row.count < other.count := by
  rw [scanned.split, reading, cons_append] at ascending
  exact (pairwise_cons.mp (pairwise_append.mp ascending).2.1).1 other (mem_append_left _ member)

theorem scanned_before (scanned : Scanned window mark read rows left) (member : row ∈ read)
    (after : other ∈ rows ++ left) : row.count < other.count := by
  rw [scanned.split] at ascending
  exact (pairwise_append.mp ascending).2.2 row member other after

end

section

variable {scan : DeviceScan} {eventsLen : Nat} {row : Row Unit} {rest : List (Row Unit)} {user : UserId}

def DeviceScan.Alive (scan : DeviceScan) (user : UserId) : Prop :=
  user ∈ scan.events ∨ user ∉ scan.deviceListChanges ∧ ∃ row ∈ scan.rows, row.user = user

theorem device_back (reading : scan.rows = row :: rest) (alive : (scan.read eventsLen row rest).1.Alive user) :
    scan.Alive user := by
  rw [DeviceScan.Alive, reading]
  rw [DeviceScan.read] at alive
  split at alive
  case isTrue known =>
    rcases alive with made | ⟨fresh, other, member, same⟩
    · exact .inl made
    · exact .inr ⟨fresh, other, mem_cons_of_mem row member, same⟩
  case isFalse new =>
    split at alive
    case isTrue full =>
      rcases alive with made | ⟨_, other, member, _⟩
      · exact .inl made
      · exact absurd member not_mem_nil
    case isFalse =>
      rcases alive with made | ⟨fresh, other, member, same⟩
      · rcases mem_append.mp made with before | own
        · exact .inl before
        · rw [mem_singleton] at own
          exact .inr ⟨own ▸ new, row, mem_cons_self, own.symm⟩
      · exact .inr ⟨fun known => fresh (mem_cons_of_mem _ known), other, mem_cons_of_mem row member, same⟩

theorem device_kept (reading : scan.rows = row :: rest)
    (slot : row.user ∉ scan.deviceListChanges → eventsLen < EDU_LIMIT) (alive : scan.Alive user) :
    (scan.read eventsLen row rest).1.Alive user := by
  rw [DeviceScan.Alive, reading] at alive
  rw [DeviceScan.read]
  split
  case isTrue known =>
    rcases alive with made | ⟨fresh, other, member, same⟩
    · exact .inl made
    · rcases mem_cons.mp member with rfl | inRest
      · exact absurd (same ▸ known) fresh
      · exact .inr ⟨fresh, other, inRest, same⟩
  case isFalse new =>
    rw [if_neg (Nat.not_le_of_lt (slot new))]
    rcases alive with made | ⟨fresh, other, member, same⟩
    · exact .inl (mem_append_left _ made)
    · by_cases own : user = row.user
      · exact .inl (mem_append_right _ (mem_singleton.mpr own))
      · rcases mem_cons.mp member with rfl | inRest
        · exact absurd same.symm own
        · exact .inr ⟨fun known => (mem_cons.mp known).elim own fresh, other, inRest, same⟩

theorem device_refused (noted : ∀ user ∈ scan.events, user ∈ scan.deviceListChanges)
    (new : row.user ∉ scan.deviceListChanges) (full : EDU_LIMIT ≤ eventsLen) :
    ¬ (scan.read eventsLen row rest).1.Alive row.user := by
  rw [DeviceScan.read, if_neg new, if_pos full]
  rintro (made | ⟨fresh, _⟩)
  · exact new (noted row.user made)
  · exact fresh mem_cons_self

theorem device_noted (noted : ∀ user ∈ scan.events, user ∈ scan.deviceListChanges) :
    ∀ user ∈ (scan.read eventsLen row rest).1.events, user ∈ (scan.read eventsLen row rest).1.deviceListChanges := by
  rw [DeviceScan.read]
  intro user
  split
  case isTrue => exact noted user
  case isFalse =>
    split
    case isTrue => exact fun made => mem_cons_of_mem _ (noted user made)
    case isFalse =>
      intro made
      rcases mem_append.mp made with before | own
      · exact mem_cons_of_mem _ (noted user before)
      · exact mem_singleton.mp own ▸ mem_cons_self

theorem device_rows : ∀ other ∈ (scan.read eventsLen row rest).1.rows, other ∈ rest := by
  rw [DeviceScan.read]
  intro other
  split
  case isTrue => exact id
  case isFalse =>
    split
    case isTrue => exact fun member => absurd member not_mem_nil
    case isFalse => exact id

end

structure Apart (changes : Changes) : Prop where
  receipts : ∀ room, ∀ row ∈ (changes.readReceipts room).rows, ∀ other ∈ (changes.readReceipts room).rows,
    row.user = other.user → ∀ data, row.body = some data → other.body = some data → row = other
  presences : ∀ row ∈ changes.presences.rows, ∀ other ∈ changes.presences.rows, row.user = other.user → row = other

section

variable {changes : Changes} {room : RoomId} {scan : ReceiptScan} {num mark : Nat}
  {row other : Row (Option ReceiptData)} {rest : List (Row (Option ReceiptData))} {data : ReceiptData}

theorem local_receipt_body (found : localReceipt changes row = some data) : row.body = some data := by
  rw [localReceipt] at found
  split at found
  case isTrue => exact found
  case isFalse => cases found

def gathered (changes : Changes) (read : List (Row (Option ReceiptData))) (user : UserId) : List ReceiptData :=
  read.filterMap fun row => if row.user = user then localReceipt changes row else none

theorem gathered_member {read : List (Row (Option ReceiptData))} {user : UserId} :
    data ∈ gathered changes read user ↔ ∃ row ∈ read, row.user = user ∧ localReceipt changes row = some data := by
  rw [gathered, mem_filterMap]
  refine exists_congr fun row => and_congr_right fun _ => ?_
  split
  case isTrue same => exact ⟨fun found => ⟨same, found⟩, fun both => both.2⟩
  case isFalse different => exact ⟨fun found => absurd found (by simp), fun both => absurd both.1 different⟩

theorem gathered_append (changes : Changes) (read : List (Row (Option ReceiptData))) (row : Row (Option ReceiptData))
    (user : UserId) : gathered changes (read ++ [row]) user = gathered changes read user ++
    (if row.user = user then localReceipt changes row else none).toList := by
  rw [gathered, filterMap_append, filterMap_cons, filterMap_nil]
  cases (if row.user = user then localReceipt changes row else none) <;> rfl

theorem collect_receipt_user {byUser : BTreeMap UserId (List ReceiptData)} {user other : UserId} :
    (collectReceipt byUser user data)[other]?.getD [] = byUser[other]?.getD [] ++
    (if user = other then some data else none).toList := by
  rw [collectReceipt]
  by_cases same : user = other
  · rw [same, getElem?_insert_self, if_pos rfl]
    rfl
  · rw [insert_elsewhere (Ne.symm same), if_neg same, toList_none, append_nil]

def ReceiptScan.Alive (scan : ReceiptScan) (row : Row (Option ReceiptData)) : Prop :=
  row ∈ scan.rows ∨ ∃ data ∈ scan.byUser[row.user]?.getD [], row.body = some data

def ReceiptScan.Sound (changes : Changes) (room : RoomId) (mark : Nat) (scan : ReceiptScan) : Prop :=
  ∃ read, readreceiptsSince changes room = read ++ (scan.rows ++ scan.left) ∧
    (∀ user, scan.byUser[user]?.getD [] = gathered changes read user) ∧
    (∀ row ∈ read, row.count ≤ mark) ∧ (scan.left = [] ∨ scan.rows = [])

theorem receipt_scanned : scan.Sound changes room mark ↔
    ∃ read, Scanned (readreceiptsSince changes room) mark read scan.rows scan.left ∧
    ∀ user, scan.byUser[user]?.getD [] = gathered changes read user := by
  refine ⟨fun sound => ?_, fun sound => ?_⟩
  · obtain ⟨read, split, users, counts, ends⟩ := sound
    exact ⟨read, ⟨split, counts, ends⟩, users⟩
  · obtain ⟨read, scanned, users⟩ := sound
    exact ⟨read, scanned.split, users, scanned.counts, scanned.ends⟩

theorem receipts_ascending (changes : Changes) (room : RoomId) :
    (readreceiptsSince changes room).Pairwise fun row later => row.count < later.count :=
  (changes.readReceipts room).ascending.sublist rows_since_sublist

theorem receipt_read_user (user : UserId) : ((scan.read changes num row rest).1.byUser)[user]?.getD [] =
    scan.byUser[user]?.getD [] ++ (if row.user = user then localReceipt changes row else none).toList := by
  rw [ReceiptScan.read]
  cases localReceipt changes row with
  | none => simp
  | some data =>
    dsimp only
    split
    · exact collect_receipt_user
    · exact collect_receipt_user

theorem receipt_read_rows (changes : Changes) (scan : ReceiptScan) (num : Nat) (row : Row (Option ReceiptData))
    (rest : List (Row (Option ReceiptData))) :
    ((scan.read changes num row rest).1.rows = rest ∧ (scan.read changes num row rest).1.left = scan.left) ∨
    ((localReceipt changes row).isSome = true ∧ receiptCuts scan num row.user = true ∧
    (scan.read changes num row rest).1.rows = [] ∧
      (scan.read changes num row rest).1.left = rest) := by
  rw [ReceiptScan.read]
  cases localReceipt changes row with
  | none => exact .inl ⟨rfl, rfl⟩
  | some data =>
    dsimp only
    by_cases cuts : receiptCuts scan num row.user = true
    · rw [if_pos cuts]
      exact .inr ⟨rfl, cuts, rfl, rfl⟩
    · rw [if_neg cuts]
      exact .inl ⟨rfl, rfl⟩

theorem receipt_cut_left (due : (localReceipt changes row).isSome = true)
    (cuts : receiptCuts scan num row.user = true) : (scan.read changes num row rest).1.left = rest := by
  obtain ⟨data, found⟩ := isSome_iff_exists.mp due
  rw [ReceiptScan.read, found]
  dsimp only
  rw [if_pos cuts]

theorem receipt_sound (reading : scan.rows = row :: rest) (sound : scan.Sound changes room mark) :
    (scan.read changes num row rest).1.Sound changes room (max mark row.count) := by
  obtain ⟨read, scanned, users⟩ := receipt_scanned.mp sound
  refine receipt_scanned.mpr ⟨read ++ [row], scanned_next scanned reading ?_, fun user => ?_⟩
  · exact (receipt_read_rows changes scan num row rest).imp_right fun ⟨_, _, rows, left⟩ => ⟨rows, left⟩
  · rw [receipt_read_user, users, gathered_append]

theorem receipt_kept (reading : scan.rows = row :: rest) (due : (localReceipt changes other).isSome = true)
    (alive : scan.Alive other) : (scan.read changes num row rest).1.Alive other ∨
      other ∈ rest ∧ other ∈ (scan.read changes num row rest).1.left ∧ (localReceipt changes row).isSome = true ∧
      receiptCuts scan num row.user = true := by
  rw [ReceiptScan.Alive, reading] at alive
  rcases alive with waiting | ⟨data, member, body⟩
  · rcases mem_cons.mp waiting with rfl | inRest
    · obtain ⟨data, found⟩ := isSome_iff_exists.mp due
      refine .inl (.inr ⟨data, ?_, local_receipt_body found⟩)
      rw [receipt_read_user, if_pos rfl, found]
      exact mem_append_right _ mem_cons_self
    · rcases receipt_read_rows changes scan num row rest with ⟨rows, -⟩ | ⟨found, cuts, -, left⟩
      · exact .inl (.inl (rows.symm ▸ inRest))
      · exact .inr ⟨inRest, left.symm ▸ inRest, found, cuts⟩
  · refine .inl (.inr ⟨data, ?_, body⟩)
    rw [receipt_read_user]
    exact mem_append_left _ member

theorem receipt_left (same : other ∈ scan.left) (reading : scan.rows = row :: rest)
    (sound : scan.Sound changes room mark) : False := by
  obtain ⟨read, scanned, -⟩ := receipt_scanned.mp sound
  rw [scanned_going scanned reading] at same
  exact absurd same not_mem_nil

variable (apart : Apart changes)

include apart

theorem apart_receipts (first : row ∈ readreceiptsSince changes room) (second : other ∈ readreceiptsSince changes room)
    (users : row.user = other.user) (body : row.body = some data) (otherBody : other.body = some data) : row = other :=
  apart.receipts room row (rows_since_sublist.mem first) other (rows_since_sublist.mem second) users data body otherBody

theorem receipt_back (sound : scan.Sound changes room mark) (reading : scan.rows = row :: rest)
    (window : other ∈ readreceiptsSince changes room)
    (alive : (scan.read changes num row rest).1.Alive other) : scan.Alive other := by
  rw [ReceiptScan.Alive, reading]
  rcases alive with waiting | ⟨data, member, body⟩
  · rcases receipt_read_rows changes scan num row rest with ⟨rows, -⟩ | ⟨-, -, rows, -⟩
    · exact .inl (mem_cons_of_mem row (rows ▸ waiting))
    · rw [rows] at waiting
      exact absurd waiting not_mem_nil
  · rw [receipt_read_user] at member
    rcases mem_append.mp member with before | last
    · exact .inr ⟨data, before, body⟩
    · rw [mem_toList] at last
      split at last
      case isTrue users =>
        obtain ⟨read, scanned, -⟩ := receipt_scanned.mp sound
        exact .inl (apart_receipts apart (scanned_head scanned reading) window users (local_receipt_body last) body ▸ mem_cons_self)
      case isFalse => cases last

theorem receipt_left_ungathered (sound : scan.Sound changes room mark) (left : other ∈ scan.left)
    (body : other.body = some data) : data ∉ scan.byUser[other.user]?.getD [] := by
  obtain ⟨read, scanned, users⟩ := receipt_scanned.mp sound
  rw [users, gathered_member]
  rintro ⟨row, member, sameUser, found⟩
  have before := scanned_before (receipts_ascending changes room) scanned member (mem_append_right _ left)
  have same := apart_receipts apart (scanned_read scanned member)
    (scanned_after scanned (mem_append_right _ left)) sameUser (local_receipt_body found) body
  rw [same] at before
  exact absurd before (lt_irrefl _)

theorem receipt_left_dead (sound : scan.Sound changes room mark) (left : other ∈ scan.left) : ¬ scan.Alive other := by
  rintro (waiting | ⟨data, member, body⟩)
  · obtain ⟨first, rest, reading⟩ := exists_cons_of_ne_nil (ne_nil_of_mem waiting)
    exact receipt_left left reading sound
  · exact receipt_left_ungathered apart sound left body member

theorem gathered_nodup (sound : scan.Sound changes room mark) (user : UserId) : (scan.byUser[user]?.getD []).Nodup := by
  obtain ⟨read, scanned, users⟩ := receipt_scanned.mp sound
  have ascending := receipts_ascending changes room
  rw [scanned.split] at ascending
  rw [users, gathered, List.Nodup, pairwise_filterMap]
  refine (pairwise_append.mp ascending).1.imp_of_mem
    fun {first second} inFirst inSecond less data found other foundOther same => ?_
  split at found
  case isFalse => cases found
  case isTrue own =>
    split at foundOther
    case isFalse => cases foundOther
    case isTrue ownOther =>
      have equal : first = second := by
        refine apart_receipts apart (scanned_read scanned inFirst) (scanned_read scanned inSecond)
          (own.trans ownOther.symm) (local_receipt_body found) ?_
        rw [same]
        exact local_receipt_body foundOther
      rw [equal] at less
      exact absurd less (lt_irrefl _)

end

variable {changes : Changes} {scan : PresenceScan} {mark : Nat} {row other : Row (Option PresenceContent)}
  {rest : List (Row (Option PresenceContent))}

def PresenceScan.Alive (changes : Changes) (scan : PresenceScan) (row : Row (Option PresenceContent)) : Prop :=
  row ∈ scan.rows ∨
    ∃ newer ∈ changes.presences.rows, newer.user = row.user ∧ row.count ≤ newer.count ∧
      ∃ update, visiblePresence changes newer = some update ∧ scan.presenceUpdates[row.user]? = some update

def PresenceScan.Sound (changes : Changes) (mark : Nat) (scan : PresenceScan) : Prop :=
  ∃ read, presenceSince changes = read ++ (scan.rows ++ scan.left) ∧
    (∀ user update, scan.presenceUpdates[user]? = some update → ∃ row ∈ read, row.user = user ∧ visiblePresence changes row = some update) ∧
    (∀ row ∈ read, row.count ≤ mark) ∧ (scan.left = [] ∨ scan.rows = [])

theorem presence_scanned : scan.Sound changes mark ↔
    ∃ read, Scanned (presenceSince changes) mark read scan.rows scan.left ∧
      ∀ user update, scan.presenceUpdates[user]? = some update → ∃ row ∈ read, row.user = user ∧
      visiblePresence changes row = some update := by
  refine ⟨fun sound => ?_, fun sound => ?_⟩
  · obtain ⟨read, split, users, counts, ends⟩ := sound
    exact ⟨read, ⟨split, counts, ends⟩, users⟩
  · obtain ⟨read, scanned, users⟩ := sound
    exact ⟨read, scanned.split, users, scanned.counts, scanned.ends⟩

theorem presence_ascending : (presenceSince changes).Pairwise fun row later => row.count < later.count :=
  changes.presences.ascending.sublist List.filter_sublist

section

variable (changes : Changes) (scan : PresenceScan) (row : Row (Option PresenceContent))
  (rest : List (Row (Option PresenceContent)))

theorem presence_read_updates : (scan.read changes row rest).presenceUpdates =
      (visiblePresence changes row).elim scan.presenceUpdates fun update => scan.presenceUpdates.insert row.user update := by
  rw [PresenceScan.read]
  cases visiblePresence changes row with
  | none => rfl
  | some update =>
    dsimp only
    split <;> rfl

theorem presence_read_rows :
    ((scan.read changes row rest).rows = rest ∧ (scan.read changes row rest).left = scan.left) ∨
      ∃ update, visiblePresence changes row = some update ∧ presenceCuts scan row.user update = true ∧
      (scan.read changes row rest).rows = [] ∧
        (scan.read changes row rest).left = rest := by
  rw [PresenceScan.read]
  cases visiblePresence changes row with
  | none => exact .inl ⟨rfl, rfl⟩
  | some update =>
    dsimp only
    by_cases cuts : presenceCuts scan row.user update = true
    · rw [if_pos cuts]
      exact .inr ⟨update, rfl, cuts, rfl, rfl⟩
    · rw [if_neg cuts]
      exact .inl ⟨rfl, rfl⟩

end

variable {user : UserId} {update : PresenceUpdate}

theorem presence_cut_left (found : visiblePresence changes row = some update)
    (cuts : presenceCuts scan row.user update = true) : (scan.read changes row rest).left = rest := by
  rw [PresenceScan.read, found]
  dsimp only
  rw [if_pos cuts]

theorem presence_read_source (held : (scan.read changes row rest).presenceUpdates[user]? = some update) :
    (row.user = user ∧ visiblePresence changes row = some update) ∨ scan.presenceUpdates[user]? = some update := by
  rw [presence_read_updates] at held
  cases found : visiblePresence changes row with
  | none =>
    rw [found] at held
    exact .inr held
  | some own =>
    rw [found, elim_some] at held
    by_cases same : user = row.user
    · rw [same, getElem?_insert_self] at held
      exact .inl ⟨same.symm, held⟩
    · rw [insert_elsewhere same] at held
      exact .inr held

theorem presence_sound (reading : scan.rows = row :: rest) (sound : scan.Sound changes mark) :
    (scan.read changes row rest).Sound changes (max mark row.count) := by
  obtain ⟨read, scanned, users⟩ := presence_scanned.mp sound
  refine presence_scanned.mpr ⟨read ++ [row], scanned_next scanned reading ?_, fun user update held => ?_⟩
  · exact (presence_read_rows changes scan row rest).imp_right fun ⟨_, _, _, rows, left⟩ => ⟨rows, left⟩
  · rcases presence_read_source held with ⟨same, found⟩ | before
    · exact ⟨row, mem_append_right _ mem_cons_self, same, found⟩
    · obtain ⟨earlier, member, own, found⟩ := users user update before
      exact ⟨earlier, mem_append_left _ member, own, found⟩

theorem presence_read_own (found : visiblePresence changes row = some update) :
    (scan.read changes row rest).presenceUpdates[row.user]? = some update := by
  rw [presence_read_updates, found]
  exact getElem?_insert_self

theorem presence_read_elsewhere (elsewhere : row.user = user → visiblePresence changes row = none) :
    (scan.read changes row rest).presenceUpdates[user]? = scan.presenceUpdates[user]? := by
  rw [presence_read_updates]
  cases found : visiblePresence changes row with
  | none => rfl
  | some update =>
    refine insert_elsewhere fun same => ?_
    rw [found] at elsewhere
    cases elsewhere same.symm

theorem presence_kept (sound : scan.Sound changes mark) (reading : scan.rows = row :: rest)
    (window : other ∈ presenceSince changes)
    (due : (visiblePresence changes other).isSome = true) (alive : scan.Alive changes other) :
    (scan.read changes row rest).Alive changes other ∨
      other ∈ rest ∧ other ∈ (scan.read changes row rest).left ∧ ∃ update, visiblePresence changes row = some update ∧
      presenceCuts scan row.user update = true := by
  by_cases inRest : other ∈ rest
  · rcases presence_read_rows changes scan row rest with ⟨rows, -⟩ | ⟨update, found, cuts, -, left⟩
    · exact .inl (.inl (rows.symm ▸ inRest))
    · exact .inr ⟨inRest, left.symm ▸ inRest, update, found, cuts⟩
  · refine .inl (.inr ?_)
    obtain ⟨read, scanned, -⟩ := presence_scanned.mp sound
    have older : other.count ≤ row.count := by
      rw [scanned.split, reading, scanned_going scanned reading, append_nil] at window
      rcases mem_append.mp window with before | here
      · exact le_of_lt (scanned_before presence_ascending scanned before (reading ▸ mem_append_left _ mem_cons_self))
      · rw [(mem_cons.mp here).resolve_right inRest]
    have stored : row ∈ changes.presences.rows := (presence_since_member.mp (scanned_head scanned reading)).1
    by_cases own : row.user = other.user ∧ (visiblePresence changes row).isSome = true
    · obtain ⟨update, found⟩ := isSome_iff_exists.mp own.2
      exact ⟨row, stored, own.1, older, update, found, own.1 ▸ presence_read_own found⟩
    · have unchanged : (scan.read changes row rest).presenceUpdates[other.user]? = scan.presenceUpdates[other.user]? := by
        refine presence_read_elsewhere fun same => ?_
        rw [← not_isSome_iff_eq_none]
        exact fun visible => own ⟨same, visible⟩
      rcases alive with waiting | later
      · rw [reading] at waiting
        have same : other = row := (mem_cons.mp waiting).resolve_right inRest
        exact absurd ⟨congrArg Row.user same.symm, same ▸ due⟩ own
      · rw [unchanged]
        exact later

theorem presence_left (same : other ∈ scan.left) (reading : scan.rows = row :: rest)
    (sound : scan.Sound changes mark) : False := by
  obtain ⟨read, scanned, -⟩ := presence_scanned.mp sound
  rw [scanned_going scanned reading] at same
  exact absurd same not_mem_nil

theorem apart_presence (apart : Apart changes) (first : row ∈ changes.presences.rows)
    (second : other ∈ presenceSince changes) (same : row.user = other.user) :
    row = other := apart.presences row first other (presence_since_member.mp second).1 same

theorem presence_back (apart : Apart changes) (sound : scan.Sound changes mark) (reading : scan.rows = row :: rest)
    (window : other ∈ presenceSince changes)
    (alive : (scan.read changes row rest).Alive changes other) : scan.Alive changes other := by
  rw [PresenceScan.Alive, reading]
  rcases alive with waiting | ⟨newer, stored, same, older, update, found, held⟩
  · rcases presence_read_rows changes scan row rest with ⟨rows, -⟩ | ⟨_, -, -, rows, -⟩
    · exact .inl (mem_cons_of_mem row (rows ▸ waiting))
    · rw [rows] at waiting
      exact absurd waiting not_mem_nil
  · rcases presence_read_source held with ⟨own, -⟩ | before
    · obtain ⟨read, scanned, -⟩ := presence_scanned.mp sound
      have stored := (presence_since_member.mp (scanned_head scanned reading)).1
      exact .inl (apart_presence apart stored window own ▸ mem_cons_self)
    · exact .inr ⟨newer, stored, same, older, update, found, before⟩

theorem visible_user (found : visiblePresence changes row = some update) : update.userId = row.user := by
  rw [visiblePresence] at found
  split at found
  case isFalse => cases found
  case isTrue =>
    split at found
    case isFalse => cases found
    case isTrue =>
      obtain ⟨content, -, rfl⟩ := map_eq_some_iff.mp found
      rfl

theorem presence_left_absent (apart : Apart changes) (sound : scan.Sound changes mark) (left : other ∈ scan.left) :
    scan.presenceUpdates[other.user]? = none := by
  refine eq_none_iff_forall_ne_some.mpr fun update held => ?_
  obtain ⟨read, scanned, users⟩ := presence_scanned.mp sound
  obtain ⟨row, member, same, -⟩ := users other.user update held
  have before := scanned_before presence_ascending scanned member (mem_append_right _ left)
  have stored := (presence_since_member.mp (scanned_read scanned member)).1
  rw [apart_presence apart stored (scanned_after scanned (mem_append_right _ left)) same] at before
  exact absurd before (lt_irrefl _)

theorem presence_left_dead (apart : Apart changes) (sound : scan.Sound changes mark) (left : other ∈ scan.left) :
    ¬ scan.Alive changes other := by
  rintro (waiting | ⟨newer, -, -, -, update, -, held⟩)
  · obtain ⟨first, rest, reading⟩ := exists_cons_of_ne_nil (ne_nil_of_mem waiting)
    exact presence_left left reading sound
  · rw [presence_left_absent apart sound left] at held
    cases held

end GaussMatrix.Sending.Edus
