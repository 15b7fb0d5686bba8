import GaussMatrix.Library.Runs
import GaussMatrix.Sending.Data

namespace GaussMatrix.Sending

open BigEndian Collections List Option Runs Std.ExtTreeMap Store

inductive TransactionStatus where
  | running
  | failed (tries : Nat)
  | retrying (tries : Nat)

structure Msg where
  dest : Destination
  event : SendingEvent
  queueId : Bytes
deriving DecidableEq

abbrev Flight := Destination × List QueueItem

-- Messages whose rows are written and that are yet to be dispatched are in the outbox. Issued is every key and event
-- ever queued.
structure Worker where
  tables : Tables
  statuses : Destination → Option TransactionStatus
  outbox : List Msg
  channel : List Msg
  flights : List Flight
  count : Nat
  issued : List QueueItem

def DEQUEUE_LIMIT : Nat := 48

-- The reads of a response say which events could be loaded when its transaction was built, and ok is the answer if it
-- was sent.
inductive Act where
  | queue (dest : Destination) (event : SendingEvent)
  | dispatch (id : Nat)
  | flush (server : ServerName)
  | request (backoff : Bool) (edus : Option (List EduBuf))
  | respond (id : Nat) (reads : SendingEvent → Bool) (ok : Bool)
  | cleanActive (dest : Destination)
  | cleanQueued (dest : Destination)

section

variable (worker : Worker)

def setStatus (dest : Destination) (status : Option TransactionStatus) : Destination → Option TransactionStatus :=
  Function.update worker.statuses dest status

-- Only an EDU takes a number. A flush is never queued.
def queueRequest (dest : Destination) (event : SendingEvent) : Option Worker :=
  let count := match event with
    | .pdu _ => some worker.count
    | .edu _ => if worker.count + 1 < 2 ^ 64 then some (worker.count + 1) else none
    | .flush => none
  count.map fun count =>
    let key := queueKey dest event count
    { worker with
      tables := { worker.tables with queued := worker.tables.queued.insert key (eventValue event) }
      outbox := worker.outbox ++ [⟨dest, event, key⟩]
      count := count
      issued := (key, event) :: worker.issued }

def isAppservice : Destination → Bool
  | .appservice _ => true
  | .push .. | .federation _ => false

def selectedEdus (dest : Destination) (edus : Option (List EduBuf)) : List QueueItem :=
  match dest with
  | .federation _ => (edus.getD []).map fun buf => ([], .edu buf)
  | .appservice _ | .push .. => []

def handleRequest (msg : Msg) (backoff : Bool) (edus : Option (List EduBuf)) : Option Worker :=
  match worker.statuses msg.dest with
  | none =>
    let items : List QueueItem := [(msg.queueId, msg.event)]
    some { worker with
      tables := markAsActive worker.tables items
      statuses := setStatus worker msg.dest (some .running)
      flights := worker.flights ++ [(msg.dest, items ++ selectedEdus msg.dest edus)] }
  | some (.failed tries) =>
    if backoff && !isAppservice msg.dest then some worker
    else (parseRows (prefixScan worker.tables.active (getPrefix msg.dest))).map fun events =>
        if events = [] then { worker with statuses := setStatus worker msg.dest none }
        else { worker with
          statuses := setStatus worker msg.dest (some (.retrying tries))
          flights := worker.flights ++ [(msg.dest, events)] }
  | some .running | some (.retrying _) => some worker

def handleResponseOk (dest : Destination) : Option Worker :=
  let tables := { worker.tables with active := deletePrefix worker.tables.active (getPrefix dest) }
  (parseRows ((prefixScan tables.queued (getPrefix dest)).take DEQUEUE_LIMIT)).map fun newEvents =>
    if newEvents = [] then { worker with tables := tables, statuses := setStatus worker dest none }
    else { worker with tables := markAsActive tables newEvents, flights := worker.flights ++ [(dest, newEvents)] }

-- None is the panic on a request that was not even running.
def handleResponseErr (dest : Destination) : Option Worker :=
  match worker.statuses dest with
  | none => some worker
  | some .running => some { worker with statuses := setStatus worker dest (some (.failed 1)) }
  | some (.retrying tries) =>
    some { worker with statuses := setStatus worker dest (some (.failed (min (tries + 1) (2 ^ 32 - 1)))) }
  | some (.failed _) => none

-- What is sent: a flush has no content, and an event that cannot be read is left out.
def transaction (reads : SendingEvent → Bool) (flight : Flight) : List QueueItem :=
  flight.2.filter fun item => item.2 ≠ .flush && reads item.2

-- With nothing left to send to a server the transaction counts as done.
def sendEvents (reads : SendingEvent → Bool) (ok : Bool) (flight : Flight) : Bool :=
  match flight.1 with
  | .federation _ => (transaction reads flight).isEmpty || ok
  | .appservice _ | .push .. => ok

def cleans : Destination → Bool
  | .appservice _ | .push .. => true
  | .federation _ => false

def step : Act → Option Worker
  | .queue dest event => queueRequest worker dest event
  | .dispatch id => (worker.outbox[id]?).map fun msg =>
    { worker with outbox := worker.outbox.eraseIdx id, channel := worker.channel ++ [msg] }
  | .flush server => some { worker with channel := worker.channel ++ [⟨.federation server, .flush, []⟩] }
  | .request backoff edus =>
    match worker.channel with
    | [] => none
    | msg :: rest => handleRequest { worker with channel := rest } msg backoff edus
  | .respond id reads ok =>
    (worker.flights[id]?).bind fun flight =>
      let rest := { worker with flights := worker.flights.eraseIdx id }
      if sendEvents reads ok flight then handleResponseOk rest flight.1 else handleResponseErr rest flight.1
  | .cleanActive dest =>
    if cleans dest then some
    { worker with tables := { worker.tables with active := deletePrefix worker.tables.active (getPrefix dest) } }
    else none
  | .cleanQueued dest =>
    if cleans dest then some
      { worker with tables := { worker.tables with queued := deletePrefix worker.tables.queued (getPrefix dest) } }
      else none

end

def start (count : Nat) : Worker := ⟨⟨∅, ∅⟩, fun _ => none, [], [], [], count, []⟩

def messaged (messages : List Msg) (dest : Destination) : Bool := messages.any fun msg => decide (msg.dest = dest)

def Awaited (worker : Worker) (dest : Destination) : Prop :=
  prefixScan worker.tables.queued (getPrefix dest) ≠ [] → messaged (worker.outbox ++ worker.channel) dest = true ∨
    (worker.statuses dest).isSome = true

instance (worker : Worker) (dest : Destination) : Decidable (Awaited worker dest) := inferInstanceAs (Decidable (_ → _))

def strands (worker : Worker) : Act → Bool
  | .request backoff _ =>
    match worker.channel with
    | [] => false
    | msg :: rest =>
      match worker.statuses msg.dest with
      | some (.failed _) =>
        !(backoff && !isAppservice msg.dest) && (prefixScan worker.tables.active (getPrefix msg.dest)).isEmpty &&
          !(prefixScan worker.tables.queued (getPrefix msg.dest)).isEmpty && !messaged (worker.outbox ++ rest) msg.dest
      | _ => false
  | _ => false

def Meets (worker : Worker) (act : Act) : Prop := strands worker act = false

instance (worker : Worker) (act : Act) : Decidable (Meets worker act) := inferInstanceAs (Decidable (_ = _))

variable {worker next : Worker}

inductive Moves (worker : Worker) : Act → Worker → Prop where
  | queued (dest : Destination) (event : SendingEvent) (count : Nat)
      (numbered : (∃ id, event = .pdu id) ∧ count = worker.count ∨ (∃ buf, event = .edu buf) ∧
        count = worker.count + 1 ∧ worker.count + 1 < 2 ^ 64) :
      Moves worker (.queue dest event)
        { worker with
          tables := { worker.tables with queued := worker.tables.queued.insert (queueKey dest event count) (eventValue event) }
          outbox := worker.outbox ++ [⟨dest, event, queueKey dest event count⟩]
          count := count
          issued := (queueKey dest event count, event) :: worker.issued }
  | dispatched (id : Nat) (msg : Msg) (held : worker.outbox[id]? = some msg) :
      Moves worker (.dispatch id) { worker with outbox := worker.outbox.eraseIdx id, channel := worker.channel ++ [msg] }
  | flushed (server : ServerName) : Moves worker (.flush server) { worker with channel := worker.channel ++ [⟨.federation server, .flush, []⟩] }
  | ignored (backoff : Bool) (edus : Option (List EduBuf)) (msg : Msg) (rest : List Msg) (taken : worker.channel = msg :: rest)
      (busy : (worker.statuses msg.dest).isSome = true) : Moves worker (.request backoff edus) { worker with channel := rest }
  | started (backoff : Bool) (edus : Option (List EduBuf)) (msg : Msg) (rest : List Msg) (taken : worker.channel = msg :: rest)
      (idle : worker.statuses msg.dest = none) :
      Moves worker (.request backoff edus)
        { worker with
          channel := rest
          tables := markAsActive worker.tables [(msg.queueId, msg.event)]
          statuses := setStatus worker msg.dest (some .running)
          flights := worker.flights ++ [(msg.dest, (msg.queueId, msg.event) :: selectedEdus msg.dest edus)] }
  | retried (backoff : Bool) (edus : Option (List EduBuf)) (msg : Msg) (rest : List Msg) (taken : worker.channel = msg :: rest) (tries : Nat)
      (failed : worker.statuses msg.dest = some (.failed tries)) (events : List QueueItem) (nonempty : events ≠ [])
      (read : parseRows (prefixScan worker.tables.active (getPrefix msg.dest)) = some events) :
      Moves worker (.request backoff edus)
        { worker with
          channel := rest
          statuses := setStatus worker msg.dest (some (.retrying tries))
          flights := worker.flights ++ [(msg.dest, events)] }
  | forgotten (backoff : Bool) (edus : Option (List EduBuf)) (msg : Msg) (rest : List Msg) (taken : worker.channel = msg :: rest) (tries : Nat)
      (failed : worker.statuses msg.dest = some (.failed tries)) (due : (backoff && !isAppservice msg.dest) = false)
      (empty : prefixScan worker.tables.active (getPrefix msg.dest) = []) :
      Moves worker (.request backoff edus) { worker with channel := rest, statuses := setStatus worker msg.dest none }
  | emptied (id : Nat) (reads : SendingEvent → Bool) (ok : Bool) (flight : Flight) (held : worker.flights[id]? = some flight)
      (done : sendEvents reads ok flight = true) (empty : prefixScan worker.tables.queued (getPrefix flight.1) = []) :
      Moves worker (.respond id reads ok)
        { worker with
          flights := worker.flights.eraseIdx id
          tables := { worker.tables with active := deletePrefix worker.tables.active (getPrefix flight.1) }
          statuses := setStatus worker flight.1 none }
  | continued (id : Nat) (reads : SendingEvent → Bool) (ok : Bool) (flight : Flight) (held : worker.flights[id]? = some flight)
      (done : sendEvents reads ok flight = true) (events : List QueueItem)
      (read : parseRows ((prefixScan worker.tables.queued (getPrefix flight.1)).take DEQUEUE_LIMIT) = some events) :
      Moves worker (.respond id reads ok)
        { worker with
          flights := worker.flights.eraseIdx id ++ [(flight.1, events)]
          tables := markAsActive { worker.tables with active := deletePrefix worker.tables.active (getPrefix flight.1) } events }
  | unanswered (id : Nat) (reads : SendingEvent → Bool) (ok : Bool) (flight : Flight) (held : worker.flights[id]? = some flight) (tries : Nat) :
      Moves worker (.respond id reads ok) { worker with flights := worker.flights.eraseIdx id, statuses := setStatus worker flight.1 (some (.failed tries)) }
  | disregarded (id : Nat) (reads : SendingEvent → Bool) (ok : Bool) (flight : Flight) (held : worker.flights[id]? = some flight)
      (idle : worker.statuses flight.1 = none) : Moves worker (.respond id reads ok) { worker with flights := worker.flights.eraseIdx id }
  | cleanedActive (dest : Destination) (cleanable : cleans dest = true) :
      Moves worker (.cleanActive dest)
        { worker with tables := { worker.tables with active := deletePrefix worker.tables.active (getPrefix dest) } }
  | cleanedQueued (dest : Destination) (cleanable : cleans dest = true) :
      Moves worker (.cleanQueued dest)
        { worker with tables := { worker.tables with queued := deletePrefix worker.tables.queued (getPrefix dest) } }

variable {rows : List (Bytes × Bytes)}

theorem parse_rows_nil (read : parseRows rows = some []) : rows = [] := by
  cases rows with
  | nil => rfl
  | cons row rest =>
    obtain ⟨event, -, member⟩ := (parse_rows_items read).2 row mem_cons_self
    exact absurd member not_mem_nil

theorem queue_moves {dest : Destination} {event : SendingEvent} (queued : queueRequest worker dest event = some next) :
    Moves worker (.queue dest event) next := by
  obtain ⟨count, given, rfl⟩ := map_eq_some_iff.mp queued
  cases event with
  | pdu id =>
    cases given
    exact .queued dest _ _ (.inl ⟨⟨id, rfl⟩, rfl⟩)
  | edu buf =>
    dsimp only at given
    split at given
    case isTrue room =>
      cases given
      exact .queued dest _ _ (.inr ⟨⟨buf, rfl⟩, rfl, room⟩)
    case isFalse => cases given
  | flush => cases given

variable {msg : Msg} {rest : List Msg}

theorem request_moves {backoff : Bool} {edus : Option (List EduBuf)} (taken : worker.channel = msg :: rest)
    (handled : handleRequest { worker with channel := rest } msg backoff edus = some next) :
    Moves worker (.request backoff edus) next := by
  rw [handleRequest] at handled
  split at handled
  next idle =>
    cases handled
    exact .started backoff edus msg rest taken idle
  next tries failed =>
    split at handled
    case isTrue =>
      cases handled
      exact .ignored backoff edus msg rest taken (isSome_of_eq_some failed)
    case isFalse due =>
      obtain ⟨events, read, rfl⟩ := map_eq_some_iff.mp handled
      split
      case isTrue empty =>
        exact .forgotten backoff edus msg rest taken tries failed (Bool.eq_false_iff.mpr due) (parse_rows_nil (empty ▸ read))
      case isFalse nonempty => exact .retried backoff edus msg rest taken tries failed events nonempty read
  next running =>
    cases handled
    exact .ignored backoff edus msg rest taken (isSome_of_eq_some running)
  next tries retrying =>
    cases handled
    exact .ignored backoff edus msg rest taken (isSome_of_eq_some retrying)

theorem take_nil {A : Type} {items : List A} (none : items.take DEQUEUE_LIMIT = []) : items = [] := by
  cases items with
  | nil => rfl
  | cons item rest => cases none

theorem respond_moves {id : Nat} {flight : Flight} (held : worker.flights[id]? = some flight)
    {reads : SendingEvent → Bool} {ok : Bool} (handled :
    (if sendEvents reads ok flight then handleResponseOk { worker with flights := worker.flights.eraseIdx id } flight.1
      else handleResponseErr { worker with flights := worker.flights.eraseIdx id } flight.1) = some next) :
      Moves worker (.respond id reads ok) next := by
  split at handled
  case isTrue done =>
    obtain ⟨events, read, rfl⟩ := map_eq_some_iff.mp handled
    split
    case isTrue empty => exact .emptied id reads ok flight held done (take_nil (parse_rows_nil (empty ▸ read)))
    case isFalse => exact .continued id reads ok flight held done events read
  case isFalse =>
    rw [handleResponseErr] at handled
    split at handled
    next idle =>
      cases handled
      exact .disregarded id reads ok flight held idle
    next =>
      cases handled
      exact .unanswered id reads ok flight held 1
    next tries _ =>
      cases handled
      exact .unanswered id reads ok flight held _
    next => cases handled

theorem step_moves {act : Act} (stepped : step worker act = some next) : Moves worker act next := by
  cases act with
  | queue dest event => exact queue_moves stepped
  | dispatch id =>
    obtain ⟨msg, held, rfl⟩ := map_eq_some_iff.mp stepped
    exact .dispatched id msg held
  | flush server =>
    cases stepped
    exact .flushed server
  | request backoff edus =>
    rw [step] at stepped
    split at stepped
    next => cases stepped
    next msg rest taken => exact request_moves taken stepped
  | respond id reads ok =>
    obtain ⟨flight, held, handled⟩ := bind_eq_some_iff.mp stepped
    exact respond_moves held handled
  | cleanActive dest =>
    rw [step] at stepped
    split at stepped
    case isTrue cleanable =>
      cases stepped
      exact .cleanedActive dest cleanable
    case isFalse => cases stepped
  | cleanQueued dest =>
    rw [step] at stepped
    split at stepped
    case isTrue cleanable =>
      cases stepped
      exact .cleanedQueued dest cleanable
    case isFalse => cases stepped

variable {act : Act}

structure Sound (worker : Worker) : Prop where
  fits : worker.count < 2 ^ 64
  given : ∀ entry ∈ worker.issued, entry.2 ≠ .flush ∧ ∃ dest count, count ≤ worker.count ∧
    entry.1 = queueKey dest entry.2 count
  single : ∀ entry ∈ worker.issued, ∀ other ∈ worker.issued, entry.1 = other.1 → entry.2 = other.2
  rows : ∀ key value, Stored worker.tables key value → ∃ event, (key, event) ∈ worker.issued ∧ eventValue event = value
  messages : ∀ msg ∈ worker.outbox ++ worker.channel, (msg.queueId, msg.event) ∈ worker.issued ∧
    getPrefix msg.dest <+: msg.queueId ∨ msg.queueId = []

theorem start_sound {count : Nat} (fits : count < 2 ^ 64) : Sound (start count) where
  fits := fits
  given := fun entry member => absurd member not_mem_nil
  single := fun entry member => absurd member not_mem_nil
  rows := fun key value stored => by simp [Stored, start] at stored
  messages := fun msg member => absurd member not_mem_nil

section

variable {dest : Destination} {event : SendingEvent} {count : Nat}
  (numbered : (∃ id, event = .pdu id) ∧ count = worker.count ∨ (∃ buf, event = .edu buf) ∧ count = worker.count + 1 ∧
    worker.count + 1 < 2 ^ 64)

include numbered

theorem queued_bounds (sound : Sound worker) : count < 2 ^ 64 ∧ worker.count ≤ count ∧ event ≠ .flush := by
  rcases numbered with ⟨⟨id, rfl⟩, rfl⟩ | ⟨⟨buf, rfl⟩, rfl, room⟩
  · exact ⟨sound.fits, le_rfl, by simp⟩
  · exact ⟨room, Nat.le_succ _, by simp⟩

theorem queued_same (sound : Sound worker) {entry : QueueItem} (member : entry ∈ worker.issued)
    (equal : entry.1 = queueKey dest event count) : event = entry.2 := by
  obtain ⟨fits, -, queueable⟩ := queued_bounds numbered sound
  obtain ⟨otherQueueable, other, earlier, below, named⟩ := sound.given entry member
  have room := sound.fits
  rcases queue_key_event queueable otherQueueable fits (by omega)
    (equal.symm.trans named) with same | ⟨⟨buf, isEdu⟩, counts⟩
  · exact same
  · rcases numbered with ⟨⟨id, rfl⟩, -⟩ | ⟨-, rfl, -⟩
    · cases isEdu
    · omega

theorem sound_queue (sound : Sound worker) : Sound
    { worker with
      tables := { worker.tables with queued := worker.tables.queued.insert (queueKey dest event count) (eventValue event) }
      outbox := worker.outbox ++ [⟨dest, event, queueKey dest event count⟩]
      count := count
      issued := (queueKey dest event count, event) :: worker.issued } := by
  have bounds := queued_bounds numbered sound
  have same : ∀ entry ∈ worker.issued, entry.1 = queueKey dest event count → event = entry.2 :=
    fun entry => queued_same numbered sound
  refine ⟨bounds.1, fun entry member => ?_, fun entry member other otherMember equal => ?_, fun key value stored => ?_,
    fun msg member => ?_⟩
  · rcases mem_cons.mp member with rfl | before
    · exact ⟨bounds.2.2, dest, count, le_rfl, rfl⟩
    · obtain ⟨queueable, other, earlier, below, named⟩ := sound.given entry before
      exact ⟨queueable, other, earlier, Nat.le_trans below bounds.2.1, named⟩
  · rcases mem_cons.mp member with rfl | before
    · rcases mem_cons.mp otherMember with rfl | otherBefore
      · rfl
      · exact same other otherBefore equal.symm
    · rcases mem_cons.mp otherMember with rfl | otherBefore
      · exact (same entry before equal).symm
      · exact sound.single entry before other otherBefore equal
  · by_cases own : key = queueKey dest event count
    · rcases stored with queued | active
      · rw [own, getElem?_insert_self] at queued
        cases queued
        exact ⟨event, own ▸ mem_cons_self, rfl⟩
      · obtain ⟨held, member, valued⟩ := sound.rows key value (.inr active)
        exact ⟨held, mem_cons_of_mem _ member, valued⟩
    · have before : Stored worker.tables key value := by
        rcases stored with queued | active
        · rw [insert_elsewhere own] at queued
          exact .inl queued
        · exact .inr active
      obtain ⟨held, member, valued⟩ := sound.rows key value before
      exact ⟨held, mem_cons_of_mem _ member, valued⟩
  · rcases mem_append.mp member with inOutbox | inChannel
    · rcases mem_append.mp inOutbox with before | last
      · exact (sound.messages msg (mem_append_left _ before)).imp_left fun known => ⟨mem_cons_of_mem _ known.1, known.2⟩
      · rw [mem_singleton.mp last]
        exact .inl ⟨mem_cons_self, queue_key_starts⟩
    · exact (sound.messages msg (mem_append_right _ inChannel)).imp_left fun known => ⟨mem_cons_of_mem _ known.1, known.2⟩

end

theorem fewer (taken : worker.channel = msg :: rest) :
    ∀ other ∈ worker.outbox ++ rest, other ∈ worker.outbox ++ worker.channel ∨ other.queueId = [] := by
  intro other member
  rw [taken]
  rcases mem_append.mp member with inOutbox | inRest
  · exact .inl (mem_append_left _ inOutbox)
  · exact .inl (mem_append_right _ (mem_cons_of_mem msg inRest))

theorem sound_kept (sound : Sound worker) (counts : next.count = worker.count) (issued : next.issued = worker.issued)
    (rows : ∀ key value, Stored next.tables key value → ∃ event, (key, event) ∈ worker.issued ∧
    eventValue event = value) (messages : ∀ msg ∈ next.outbox ++ next.channel, msg ∈ worker.outbox ++ worker.channel ∨
    msg.queueId = []) : Sound next := by
  refine ⟨counts ▸ sound.fits, ?_, ?_, ?_, fun msg member => ?_⟩
  · rw [issued, counts]
    exact sound.given
  · rw [issued]
    exact sound.single
  · rw [issued]
    exact rows
  · rw [issued]
    rcases messages msg member with before | unkeyed
    · exact sound.messages msg before
    · exact .inr unkeyed

variable {tables : Tables} {items : List QueueItem}

theorem marked_rows (sound : Sound worker) (less : ∀ key value, Stored tables key value → Stored worker.tables key value)
    (known : ∀ item ∈ items, (item.1, item.2) ∈ worker.issued ∨ item.1 = []) (key value : Bytes) (stored : Stored (markAsActive tables items) key value) :
    ∃ event, (key, event) ∈ worker.issued ∧ eventValue event = value := by
  rcases stored with queued | active
  · exact sound.rows key value (less key value (.inl (mark_queued queued)))
  · rcases mark_active active with before | ⟨item, member, keyed, nonempty, valued⟩
    · exact sound.rows key value (less key value (.inr before))
    · rcases known item member with issued | unkeyed
      · exact ⟨item.2, keyed ▸ issued, valued⟩
      · exact absurd unkeyed nonempty

theorem deleted_stored {pfx key value : Bytes}
    (stored : Stored { tables with active := deletePrefix tables.active pfx } key value) : Stored tables key value := by
  rcases stored with queued | active
  · exact .inl queued
  · exact .inr (delete_prefix_held active).1

theorem issued_parses (sound : Sound worker) {key : Bytes} {event : SendingEvent}
    (issued : (key, event) ∈ worker.issued) : parseServercurrentevent key (eventValue event) = some event := by
  obtain ⟨queueable, dest, count, -, named⟩ := sound.given _ issued
  rw [show key = queueKey dest event count from named]
  exact parse_queue_key queueable

theorem parsed_issued (sound : Sound worker) (read : parseRows rows = some items)
    (inTables : ∀ row ∈ rows, Stored worker.tables row.1 row.2) :
    ∀ item ∈ items, (item.1, item.2) ∈ worker.issued ∨ item.1 = [] := by
  intro item member
  obtain ⟨value, inRows, parsed⟩ := (parse_rows_items read).1 item member
  obtain ⟨event, issued, valued⟩ := sound.rows item.1 value (inTables _ inRows)
  rw [← valued, issued_parses sound issued] at parsed
  cases parsed
  exact .inl issued

theorem moves_sound (sound : Sound worker) (moves : Moves worker act next) : Sound next := by
  have old : ∀ key value, Stored worker.tables key value → ∃ event, (key, event) ∈ worker.issued ∧
    eventValue event = value := sound.rows
  cases moves with
  | queued dest event count numbered => exact sound_queue numbered sound
  | dispatched id msg held =>
    refine sound_kept sound rfl rfl old fun other member => .inl ?_
    rcases mem_append.mp member with inOutbox | inChannel
    · exact mem_append_left _ (mem_of_mem_eraseIdx inOutbox)
    · rcases mem_append.mp inChannel with before | last
      · exact mem_append_right _ before
      · rw [mem_singleton.mp last]
        exact mem_append_left _ (mem_of_getElem? held)
  | flushed server =>
    refine sound_kept sound rfl rfl old fun other member => ?_
    rw [← append_assoc] at member
    rcases mem_append.mp member with before | last
    · exact .inl before
    · rw [mem_singleton.mp last]
      exact .inr rfl
  | ignored backoff edus msg rest taken busy => exact sound_kept sound rfl rfl old (fewer taken)
  | started backoff edus msg rest taken idle =>
    refine sound_kept sound rfl rfl (marked_rows sound (fun key value stored => stored) fun item member => ?_) (fewer taken)
    rw [mem_singleton.mp member]
    exact (sound.messages msg (mem_append_right _ (taken ▸ mem_cons_self))).imp_left And.left
  | retried backoff edus msg rest taken tries failed events nonempty read =>
    exact sound_kept sound rfl rfl old (fewer taken)
  | forgotten backoff edus msg rest taken tries failed due empty => exact sound_kept sound rfl rfl old (fewer taken)
  | emptied id reads ok flight held done empty =>
    exact sound_kept sound rfl rfl (fun key value stored => old key value (deleted_stored stored))
      fun msg member => .inl member
  | continued id reads ok flight held done events read =>
    refine sound_kept sound rfl rfl (marked_rows sound (fun key value => deleted_stored)
      (parsed_issued sound read fun row member => ?_)) fun msg member => .inl member
    exact .inl ((prefix_scan_row _ _ row).mp (mem_of_mem_take member)).1
  | unanswered id reads ok flight held tries => exact sound_kept sound rfl rfl old fun msg member => .inl member
  | disregarded id reads ok flight held idle => exact sound_kept sound rfl rfl old fun msg member => .inl member
  | cleanedActive dest =>
    exact sound_kept sound rfl rfl (fun key value stored => old key value (deleted_stored stored))
      fun msg member => .inl member
  | cleanedQueued dest =>
    refine sound_kept sound rfl rfl (fun key value stored => old key value ?_) fun msg member => .inl member
    rcases stored with queued | active
    · exact .inl (delete_prefix_held queued).1
    · exact .inr active

end GaussMatrix.Sending
