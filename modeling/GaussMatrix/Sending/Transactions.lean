import GaussMatrix.Sending.Worker

namespace GaussMatrix.Sending

open Collections List Runs Store

variable {status : Option TransactionStatus} {tree : DomainTree Bytes} {pfx : Bytes}

section

variable {worker next : Worker} {act : Act} {dest : Destination}

def ActiveFor (tables : Tables) (dest : Destination) (key value : Bytes) : Prop :=
  tables.active[key]? = some value ∧ getPrefix dest <+: key

def Contains (flight : Flight) (key value : Bytes) : Prop :=
  ∃ event, parseServercurrentevent key value = some event ∧ (key, event) ∈ flight.2

structure Flying (worker : Worker) : Prop where
  busy : ∀ flight ∈ worker.flights, worker.statuses flight.1 = some .running ∨
    ∃ tries, worker.statuses flight.1 = some (.retrying tries)
  single : (worker.flights.map Prod.fst).Nodup
  idle : ∀ dest, worker.statuses dest = none → ∀ key value, ¬ ActiveFor worker.tables dest key value
  carried : ∀ flight ∈ worker.flights, ∀ key value, ActiveFor worker.tables flight.1 key value →
    Contains flight key value

theorem start_flying {count : Nat} : Flying (start count) where
  busy := fun flight member => absurd member not_mem_nil
  single := nodup_nil
  idle := fun dest _ key value held => by simp [ActiveFor, start] at held
  carried := fun flight member => absurd member not_mem_nil

variable {other : Destination} {flights : List Flight} {id : Nat} {msg : Msg} {flight : Flight} {rest : List Msg}
  {tries : Nat} {events : List QueueItem}

theorem status_elsewhere (different : other ≠ dest) : setStatus worker dest status other = worker.statuses other :=
  Function.update_of_ne different ..

theorem status_self (worker : Worker) (dest : Destination) (status : Option TransactionStatus) :
    setStatus worker dest status dest = status := Function.update_self ..

theorem status_stays (different : other ≠ dest) (held : (worker.statuses other).isSome = true) :
    (setStatus worker dest status other).isSome = true := by
  rwa [status_elsewhere different]

variable {status : TransactionStatus}

theorem status_set (same : other = dest) : (setStatus worker dest (some status) other).isSome = true := by
  rw [same, status_self]
  rfl

theorem status_given (gone : setStatus worker dest (some status) dest = none) : False := by
  rw [status_self] at gone
  cases gone

theorem status_cleared (kept : (setStatus worker dest none dest).isSome = true) : False := by
  rw [status_self] at kept
  cases kept

theorem flying_congr (flying : Flying worker) (statuses : next.statuses = worker.statuses)
    (flights : next.flights = worker.flights) (active : next.tables.active = worker.tables.active) : Flying next := by
  refine ⟨?_, flights ▸ flying.single, fun dest none key value held => ?_, fun flight member key value held => ?_⟩
  · rw [statuses, flights]
    exact flying.busy
  · rw [statuses] at none
    rw [ActiveFor, active] at held
    exact flying.idle dest none key value held
  · rw [flights] at member
    rw [ActiveFor, active] at held
    exact flying.carried flight member key value held

theorem unoccupied (flying : Flying worker) (notRunning : worker.statuses dest ≠ some .running)
    (notRetrying : ∀ tries, worker.statuses dest ≠ some (.retrying tries)) : dest ∉ worker.flights.map Prod.fst := by
  intro member
  obtain ⟨flight, inFlights, rfl⟩ := mem_map.mp member
  rcases flying.busy flight inFlights with running | ⟨tries, retrying⟩
  · exact notRunning running
  · exact notRetrying tries retrying

theorem erased_flights (flying : Flying worker) (held : worker.flights[id]? = some flight) :
    ((worker.flights.eraseIdx id).map Prod.fst).Nodup ∧ ∀ other ∈ worker.flights.eraseIdx id, other ∈ worker.flights ∧
    other.1 ≠ flight.1 := by
  have fewer : ((worker.flights.eraseIdx id).map Prod.fst).Nodup := by
    rw [← eraseIdx_map]
    exact flying.single.sublist (eraseIdx_sublist _ _)
  refine ⟨fewer, fun other member => ⟨mem_of_mem_eraseIdx member, fun same => ?_⟩⟩
  obtain ⟨at', different, heldOther⟩ := mem_eraseIdx_iff_getElem?.mp member
  have first : (worker.flights.map Prod.fst)[id]? = some flight.1 := by rw [List.getElem?_map, held, Option.map_some]
  have second : (worker.flights.map Prod.fst)[at']? = some flight.1 := by
    rw [List.getElem?_map, heldOther, Option.map_some, same]
  have inside : id < (worker.flights.map Prod.fst).length := (List.getElem?_eq_some_iff.mp first).1
  exact different ((List.getElem?_inj inside flying.single).mp (first.trans second.symm)).symm

theorem flying_elsewhere (flying : Flying worker) (statuses : ∀ other, other ≠ dest → next.statuses other = worker.statuses other)
    (flights : ∀ flight ∈ next.flights, flight.1 ≠ dest → flight ∈ worker.flights) (single : (next.flights.map Prod.fst).Nodup)
    (active : ∀ key value, next.tables.active[key]? = some value → worker.tables.active[key]? = some value ∨ getPrefix dest <+: key)
    (busy : ∀ flight ∈ next.flights, flight.1 = dest → next.statuses dest = some .running ∨ ∃ tries, next.statuses dest = some (.retrying tries))
    (idle : next.statuses dest = none → ∀ key value, ¬ ActiveFor next.tables dest key value)
    (carried : ∀ flight ∈ next.flights, flight.1 = dest → ∀ key value, ActiveFor next.tables dest key value →
    Contains flight key value) : Flying next := by
  have before : ∀ other, other ≠ dest → ∀ key value, ActiveFor next.tables other key value →
    ActiveFor worker.tables other key value := by
    intro other different key value held
    rcases active key value held.1 with same | own
    · exact ⟨same, held.2⟩
    · exact absurd (prefix_unique held.2 own) different
  refine ⟨fun flight member => ?_, single, fun other none key value held => ?_, fun flight member key value held => ?_⟩
  · by_cases own : flight.1 = dest
    · rw [own]
      exact busy flight member own
    · rw [statuses flight.1 own]
      exact flying.busy flight (flights flight member own)
  · by_cases own : other = dest
    · exact idle (own ▸ none) key value (own ▸ held)
    · rw [statuses other own] at none
      exact flying.idle other none key value (before other own key value held)
  · by_cases own : flight.1 = dest
    · exact carried flight member own key value (own ▸ held)
    · exact flying.carried flight (flights flight member own) key value (before flight.1 own key value held)

theorem launched {found : Flight} (free : flight.1 ∉ flights.map Prod.fst) (member : found ∈ flights ++ [flight]) :
    (found.1 ≠ flight.1 → found ∈ flights) ∧ (found.1 = flight.1 → found = flight) := by
  rcases mem_append.mp member with before | last
  · refine ⟨fun _ => before, fun same => absurd (mem_map_of_mem before) (same ▸ free)⟩
  · rw [mem_singleton.mp last]
    exact ⟨absurd rfl, fun _ => rfl⟩

theorem launched_single (single : (flights.map Prod.fst).Nodup) (free : flight.1 ∉ flights.map Prod.fst) :
    ((flights ++ [flight]).map Prod.fst).Nodup := by
  rw [map_append, nodup_append]
  refine ⟨single, nodup_singleton _, fun one inFlights two last same => ?_⟩
  rw [map_singleton, mem_singleton] at last
  exact free (last ▸ same ▸ inFlights)

theorem started_flying (sound : Sound worker) (flying : Flying worker) {edus : Option (List EduBuf)}
    (taken : worker.channel = msg :: rest) (idle : worker.statuses msg.dest = none) :
    Flying { worker with
      channel := rest
      tables := markAsActive worker.tables [(msg.queueId, msg.event)]
      statuses := setStatus worker msg.dest (some .running)
      flights := worker.flights ++ [(msg.dest, (msg.queueId, msg.event) :: selectedEdus msg.dest edus)] } := by
  have free : msg.dest ∉ worker.flights.map Prod.fst := unoccupied flying (by simp [idle]) (by simp [idle])
  have message := sound.messages msg (mem_append_right _ (taken ▸ mem_cons_self))
  have marked : ∀ key value, (markAsActive worker.tables [(msg.queueId, msg.event)]).active[key]? = some value →
      worker.tables.active[key]? = some value ∨ (key = msg.queueId ∧ eventValue msg.event = value ∧
        (key, msg.event) ∈ worker.issued ∧ getPrefix msg.dest <+: key) := by
    intro key value held
    rcases mark_active held with before | ⟨item, member, keyed, nonempty, valued⟩
    · exact .inl before
    · rw [mem_singleton.mp member] at keyed nonempty valued
      rcases message with ⟨issued, own⟩ | unkeyed
      · exact .inr ⟨keyed.symm, valued, keyed ▸ issued, keyed ▸ own⟩
      · exact absurd unkeyed nonempty
  refine flying_elsewhere flying (fun other => status_elsewhere)
    (fun flight member different => (launched free member).1 different)
    (launched_single flying.single free) (fun key value held => (marked key value held).imp_right fun own => own.2.2.2)
    (fun flight member own => .inl (status_self ..)) (fun gone => (status_given gone).elim) (fun flight member own key value held => ?_)
  rw [(launched free member).2 own]
  rcases marked key value held.1 with before | ⟨keyed, valued, issued, -⟩
  · exact absurd ⟨before, held.2⟩ (flying.idle msg.dest idle key value)
  · exact ⟨msg.event, valued ▸ issued_parses sound issued, keyed ▸ mem_cons_self⟩

theorem retried_flying (flying : Flying worker) (failed : worker.statuses msg.dest = some (.failed tries))
    (read : parseRows (prefixScan worker.tables.active (getPrefix msg.dest)) = some events) :
    Flying { worker with
      channel := rest
      statuses := setStatus worker msg.dest (some (.retrying tries))
      flights := worker.flights ++ [(msg.dest, events)] } := by
  have free : msg.dest ∉ worker.flights.map Prod.fst := unoccupied flying (by simp [failed]) (by simp [failed])
  refine flying_elsewhere flying (fun other => status_elsewhere)
    (fun flight member different => (launched free member).1 different)
    (launched_single flying.single free) (fun key value held => .inl held) (fun flight member own => .inr ⟨tries, status_self ..⟩)
    (fun gone => (status_given gone).elim) (fun flight member own key value held => ?_)
  rw [(launched free member).2 own]
  exact (parse_rows_items read).2 _ ((prefix_scan_row _ _ (key, value)).mpr held)

theorem scan_empty {key value : Bytes} (empty : prefixScan tree pfx = []) (held : tree[key]? = some value) :
    ¬ pfx <+: key := by
  intro inside
  have member := (prefix_scan_row tree pfx (key, value)).mpr ⟨held, inside⟩
  rw [empty] at member
  exact absurd member not_mem_nil

section

variable (flying : Flying worker)

include flying

theorem forgotten_flying (failed : worker.statuses msg.dest = some (.failed tries))
    (empty : prefixScan worker.tables.active (getPrefix msg.dest) = []) :
    Flying { worker with channel := rest, statuses := setStatus worker msg.dest none } := by
  have free : msg.dest ∉ worker.flights.map Prod.fst := unoccupied flying (by simp [failed]) (by simp [failed])
  have absent : ∀ flight ∈ worker.flights, flight.1 ≠ msg.dest :=
    fun flight member same => free (same ▸ mem_map_of_mem member)
  exact flying_elsewhere flying (fun other => status_elsewhere) (fun flight member _ => member) flying.single
    (fun key value held => .inl held) (fun flight member own => absurd own (absent flight member))
      (fun _ key value held => scan_empty empty held.1 held.2)
    (fun flight member own => absurd own (absent flight member))

theorem emptied_flying (held : worker.flights[id]? = some flight) : Flying { worker with
      flights := worker.flights.eraseIdx id
      tables := { worker.tables with active := deletePrefix worker.tables.active (getPrefix flight.1) }
      statuses := setStatus worker flight.1 none } := by
  obtain ⟨single, others⟩ := erased_flights flying held
  exact flying_elsewhere flying (fun other => status_elsewhere) (fun other member _ => (others other member).1) single
    (fun key value row => .inl (delete_prefix_held row).1) (fun other member own => absurd own (others other member).2)
    (fun _ key value row => (delete_prefix_held row.1).2 row.2) (fun other member own => absurd own (others other member).2)

theorem continued_flying (held : worker.flights[id]? = some flight)
    (read : parseRows ((prefixScan worker.tables.queued (getPrefix flight.1)).take DEQUEUE_LIMIT) = some events) :
    Flying { worker with
      flights := worker.flights.eraseIdx id ++ [(flight.1, events)]
      tables := markAsActive { worker.tables with active := deletePrefix worker.tables.active (getPrefix flight.1) } events } := by
  obtain ⟨single, others⟩ := erased_flights flying held
  have free : (flight.1, events).1 ∉ (worker.flights.eraseIdx id).map Prod.fst := by
    intro member
    obtain ⟨other, inRest, same⟩ := mem_map.mp member
    exact (others other inRest).2 same
  have marked :
    ∀ key value, (markAsActive { worker.tables with active := deletePrefix worker.tables.active (getPrefix flight.1) }
    events).active[key]? = some value →
      (worker.tables.active[key]? = some value ∧ ¬ getPrefix flight.1 <+: key) ∨
      (getPrefix flight.1 <+: key ∧ Contains (flight.1, events) key value) := by
    intro key value row
    rcases mark_active row with before | ⟨item, member, keyed, -, valued⟩
    · exact .inl (delete_prefix_held before)
    · obtain ⟨queued, inRows, parsed⟩ := (parse_rows_items read).1 item member
      have own : getPrefix flight.1 <+: item.1 := ((prefix_scan_row _ _ _).mp (mem_of_mem_take inRows)).2
      have same : queued = value := (parsed_value parsed).symm.trans valued
      rw [← keyed, ← same]
      exact .inr ⟨own, item.2, parsed, member⟩
  refine flying_elsewhere flying (fun other different => rfl)
    (fun other member different => (others other ((launched free member).1 different)).1)
    (launched_single single free) (fun key value row => (marked key value row).imp And.left And.left)
    (fun other member own => flying.busy flight (mem_of_getElem? held)) (fun none => ?_) (fun other member own key value row => ?_)
  · rcases flying.busy flight (mem_of_getElem? held) with running | ⟨tries, retrying⟩
    · exact absurd (none.symm.trans running) (by simp)
    · exact absurd (none.symm.trans retrying) (by simp)
  · rw [(launched free member).2 own]
    rcases marked key value row.1 with ⟨-, outside⟩ | ⟨-, contained⟩
    · exact absurd row.2 outside
    · exact contained

theorem unanswered_flying (held : worker.flights[id]? = some flight) {tries : Nat} :
    Flying { worker with flights := worker.flights.eraseIdx id, statuses := setStatus worker flight.1 (some (.failed tries)) } := by
  obtain ⟨single, others⟩ := erased_flights flying held
  exact flying_elsewhere flying (fun other => status_elsewhere) (fun other member _ => (others other member).1) single
    (fun key value row => .inl row) (fun other member own => absurd own (others other member).2) (fun gone => (status_given gone).elim)
    (fun other member own => absurd own (others other member).2)

theorem cleaned_flying {dest : Destination} : Flying
    { worker with tables := { worker.tables with active := deletePrefix worker.tables.active (getPrefix dest) } } := by
  have cleared : ∀ key value,
    ¬ ActiveFor { worker.tables with active := deletePrefix worker.tables.active (getPrefix dest) } dest key value :=
    fun key value row => (delete_prefix_held row.1).2 row.2
  exact flying_elsewhere flying (fun other different => rfl)
    (fun flight member _ => member) flying.single (fun key value row => .inl (delete_prefix_held row).1)
    (fun flight member own => own ▸ flying.busy flight member) (fun _ => cleared)
      (fun flight member own key value row => absurd row (cleared key value))

end

theorem moves_flying (sound : Sound worker) (flying : Flying worker) (moves : Moves worker act next) : Flying next := by
  cases moves with
  | queued dest event count numbered => exact flying_congr flying rfl rfl rfl
  | dispatched id msg held => exact flying_congr flying rfl rfl rfl
  | flushed server => exact flying_congr flying rfl rfl rfl
  | ignored backoff edus msg rest taken busy => exact flying_congr flying rfl rfl rfl
  | started backoff edus msg rest taken idle => exact started_flying sound flying taken idle
  | retried backoff edus msg rest taken tries failed events nonempty read => exact retried_flying flying failed read
  | forgotten backoff edus msg rest taken tries failed due empty => exact forgotten_flying flying failed empty
  | emptied id reads ok flight held done empty => exact emptied_flying flying held
  | continued id reads ok flight held done events read => exact continued_flying flying held read
  | unanswered id reads ok flight held tries => exact unanswered_flying flying held
  | disregarded id reads ok flight held idle =>
    rcases flying.busy flight (mem_of_getElem? held) with running | ⟨tries, retrying⟩
    · exact absurd (idle.symm.trans running) (by simp)
    · exact absurd (idle.symm.trans retrying) (by simp)
  | cleanedActive dest cleanable => exact cleaned_flying flying
  | cleanedQueued dest cleanable => exact flying_congr flying rfl rfl rfl

theorem scan_row (nonempty : prefixScan tree pfx ≠ []) : ∃ key value, tree[key]? = some value ∧ pfx <+: key := by
  obtain ⟨row, member⟩ := exists_mem_of_ne_nil _ nonempty
  exact ⟨row.1, row.2, (prefix_scan_row tree pfx row).mp member⟩

theorem messaged_iff {messages : List Msg} : messaged messages dest = true ↔ ∃ msg ∈ messages, msg.dest = dest := by
  simp only [messaged, any_eq_true, decide_eq_true_eq]

theorem awaited_kept (awaited : Awaited worker dest)
    (queued : ∀ key value, next.tables.queued[key]? = some value → getPrefix dest <+: key →
    worker.tables.queued[key]? = some value)
    (messages : ∀ msg ∈ worker.outbox ++ worker.channel, msg.dest = dest → msg ∈ next.outbox ++ next.channel)
    (statuses : (worker.statuses dest).isSome = true → (next.statuses dest).isSome = true) : Awaited next dest := by
  intro nonempty
  obtain ⟨key, value, held, inside⟩ := scan_row nonempty
  rcases awaited fun empty => scan_empty empty (queued key value held inside) inside with waiting | status
  · obtain ⟨msg, member, addressed⟩ := messaged_iff.mp waiting
    exact .inl (messaged_iff.mpr ⟨msg, messages msg member addressed, addressed⟩)
  · exact .inr (statuses status)

theorem taken_elsewhere (taken : worker.channel = msg :: rest) (different : dest ≠ msg.dest) :
    ∀ other ∈ worker.outbox ++ worker.channel, other.dest = dest → other ∈ worker.outbox ++ rest := by
  intro other member addressed
  rw [taken] at member
  rcases mem_append.mp member with inOutbox | inChannel
  · exact mem_append_left _ inOutbox
  · rcases mem_cons.mp inChannel with rfl | inRest
    · exact absurd addressed.symm different
    · exact mem_append_right _ inRest

theorem queued_awaited (awaited : Awaited worker dest) {own : Destination} {event : SendingEvent}
    {count : Nat} : Awaited { worker with
      tables := { worker.tables with queued := worker.tables.queued.insert (queueKey own event count) (eventValue event) }
      outbox := worker.outbox ++ [⟨own, event, queueKey own event count⟩]
      count := count
      issued := (queueKey own event count, event) :: worker.issued } dest := by
  by_cases same : own = dest
  · exact fun _ => .inl (messaged_iff.mpr ⟨_, mem_append_left _ (mem_append_right _ mem_cons_self), same⟩)
  · refine awaited_kept awaited (fun key value held inside => ?_) (fun msg member _ => ?_) fun status => status
    · have apart : key ≠ queueKey own event count := by
        rintro rfl
        exact same (prefix_unique queue_key_starts inside)
      rwa [insert_elsewhere apart] at held
    · rcases mem_append.mp member with inOutbox | inChannel
      · exact mem_append_left _ (mem_append_left _ inOutbox)
      · exact mem_append_right _ inChannel

theorem dispatched_awaited (awaited : Awaited worker dest) (held : worker.outbox[id]? = some msg) :
    Awaited { worker with outbox := worker.outbox.eraseIdx id, channel := worker.channel ++ [msg] } dest := by
  refine awaited_kept awaited (fun key value held _ => held) (fun other member _ => ?_) fun status => status
  rcases mem_append.mp member with inOutbox | inChannel
  · by_cases same : other = msg
    · exact mem_append_right _ (mem_append_right _ (same ▸ mem_cons_self))
    · obtain ⟨at', read⟩ := List.getElem?_of_mem inOutbox
      refine mem_append_left _ (mem_eraseIdx_iff_getElem?.mpr ⟨at', fun equal => same ?_, read⟩)
      rw [equal, held] at read
      exact (Option.some.inj read).symm
  · exact mem_append_right _ (mem_append_left _ inChannel)

theorem moves_awaited (awaited : Awaited worker dest) (met : Meets worker act) (moves : Moves worker act next) :
    Awaited next dest := by
  have kept : ∀ key value, worker.tables.queued[key]? = some value → getPrefix dest <+: key →
    worker.tables.queued[key]? = some value := fun key value held _ => held
  cases moves with
  | queued own event count numbered => exact queued_awaited awaited
  | dispatched id msg held => exact dispatched_awaited awaited held
  | flushed server =>
    refine awaited_kept awaited kept (fun msg member _ => ?_) fun status => status
    rw [← append_assoc]
    exact mem_append_left _ member
  | ignored backoff edus msg rest taken busy =>
    by_cases own : dest = msg.dest
    · exact fun _ => .inr (own ▸ busy)
    · exact awaited_kept awaited kept (taken_elsewhere taken own) fun status => status
  | started backoff edus msg rest taken idle =>
    by_cases own : dest = msg.dest
    · exact fun _ => .inr (status_set own)
    · exact awaited_kept awaited (fun key value held _ => mark_queued held) (taken_elsewhere taken own) (status_stays own)
  | retried backoff edus msg rest taken tries failed events nonempty read =>
    by_cases own : dest = msg.dest
    · exact fun _ => .inr (status_set own)
    · exact awaited_kept awaited kept (taken_elsewhere taken own) (status_stays own)
  | forgotten backoff edus msg rest taken tries failed due empty =>
    by_cases own : dest = msg.dest
    · intro nonempty
      rw [own] at nonempty ⊢
      have unstranded : messaged (worker.outbox ++ rest) msg.dest = true := by
        simpa [Meets, strands, taken, failed, due, empty, nonempty] using met
      exact .inl unstranded
    · exact awaited_kept awaited kept (taken_elsewhere taken own) (status_stays own)
  | emptied id reads ok flight held done empty =>
    by_cases own : dest = flight.1
    · exact fun nonempty => absurd (own ▸ empty) nonempty
    · exact awaited_kept awaited kept (fun msg member _ => member) (status_stays own)
  | continued id reads ok flight held done events read =>
    exact awaited_kept awaited (fun key value held _ => mark_queued held)
      (fun msg member _ => member) fun status => status
  | unanswered id reads ok flight held tries =>
    by_cases own : dest = flight.1
    · exact fun _ => .inr (status_set own)
    · exact awaited_kept awaited kept (fun msg member _ => member) (status_stays own)
  | disregarded id reads ok flight held idle =>
    exact awaited_kept awaited kept (fun msg member _ => member) fun status => status
  | cleanedActive own cleanable => exact awaited_kept awaited kept (fun msg member _ => member) fun status => status
  | cleanedQueued own cleanable =>
    exact awaited_kept awaited (fun key value held _ => (delete_prefix_held held).1)
      (fun msg member _ => member) fun status => status

theorem start_awaited {count : Nat} : Awaited (start count) dest := by
  intro nonempty
  obtain ⟨key, value, held, -⟩ := scan_row nonempty
  simp [start] at held

theorem retry_forgets {rest : List Msg} {backoff : Bool} {edus : Option (List EduBuf)}
    (failed : worker.statuses msg.dest = some (.failed tries)) (due : (backoff && !isAppservice msg.dest) = false)
    (empty : prefixScan worker.tables.active (getPrefix msg.dest) = []) : handleRequest { worker with channel := rest }
    msg backoff edus = some { worker with channel := rest, statuses := setStatus worker msg.dest none } := by
  rw [handleRequest, failed]
  rw [due, empty]
  rfl

theorem stranded (stepped : step worker act = some next) (fails : ¬ Meets worker act) :
    ∃ dest, ¬ Awaited next dest := by
  rw [Meets, Bool.not_eq_false] at fails
  cases act with
  | request backoff edus =>
    rw [strands] at fails
    rw [step] at stepped
    split at fails
    next => cases fails
    next msg rest taken =>
      split at fails
      next tries failed =>
        simp only [Bool.and_eq_true, Bool.not_eq_true', List.isEmpty_iff, List.isEmpty_eq_false_iff] at fails
        obtain ⟨⟨⟨due, empty⟩, nonempty⟩, unmessaged⟩ := fails
        rw [taken] at stepped
        cases (retry_forgets failed due empty).symm.trans stepped
        refine ⟨msg.dest, fun awaited => ?_⟩
        rcases awaited nonempty with waiting | status
        · exact absurd (unmessaged.symm.trans waiting) Bool.false_ne_true
        · exact status_cleared status
      next => cases fails
  | _ => cases fails

variable {key value : Bytes}

theorem moves_issued (moves : Moves worker act next) : worker.issued ⊆ next.issued := by
  cases moves with
  | queued dest event count numbered => exact subset_cons_self _ _
  | _ => exact List.Subset.refl _

theorem stays_stored (sound : Sound worker) (soundNext : Sound next) (issued : worker.issued ⊆ next.issued)
    (stored : Stored worker.tables key value)
    {held : Bytes} (keyed : Stored next.tables key held) : Stored next.tables key value := by
  obtain ⟨event, before, valued⟩ := sound.rows key value stored
  obtain ⟨other, after, held⟩ := soundNext.rows key held keyed
  have same : event = other := soundNext.single _ (issued before) _ after rfl
  rwa [← held, ← same, valued] at keyed

-- The row's event was in a transaction that was sent and answered with success, or the destination was given up.
def Delivered (worker : Worker) (key value : Bytes) : Act → Prop
  | .respond id reads ok =>
    ∃ flight event, worker.flights[id]? = some flight ∧ parseServercurrentevent key value = some event ∧
      (key, event) ∈ transaction reads flight ∧ ok = true
  | .cleanActive dest | .cleanQueued dest => cleans dest = true ∧ getPrefix dest <+: key
  | _ => False

def Reads (key value : Bytes) : Act → Prop
  | .respond _ reads _ => ∀ event ∈ parseServercurrentevent key value, reads event = true
  | _ => True

theorem parsed_content {event : SendingEvent} (parsed : parseServercurrentevent key value = some event) :
    event ≠ .flush := by
  obtain ⟨bytes, _, decided⟩ := Option.bind_eq_some_iff.mp parsed
  split at decided
  · split at decided
    · cases decided
      simp
    · cases decided
  · cases decided
    simp

theorem responded_delivered {reads : SendingEvent → Bool} {ok : Bool} (held : worker.flights[id]? = some flight)
    (done : sendEvents reads ok flight = true) (contained : Contains flight key value) :
    Delivered worker key value (.respond id reads ok) ↔ Reads key value (.respond id reads ok) := by
  obtain ⟨event, parsed, flown⟩ := contained
  constructor
  · rintro ⟨other, found, _, parsedToo, sent, _⟩ again parsedAgain
    cases parsedToo.symm.trans parsedAgain
    exact (Bool.and_eq_true_iff.mp (mem_filter.mp sent).2).2
  · intro read
    have sent : (key, event) ∈ transaction reads flight := mem_filter.mpr ⟨flown, by simp [parsed_content parsed, read event parsed]⟩
    refine ⟨flight, event, held, parsed, sent, ?_⟩
    rw [sendEvents, isEmpty_eq_false_iff.mpr (ne_nil_of_mem sent), Bool.false_or] at done
    split at done <;> exact done

theorem deleted_leaves {tables : Tables} (stored : Stored tables key value)
    (gone : ¬ Stored { tables with active := deletePrefix tables.active pfx } key value) :
    tables.active[key]? = some value ∧ pfx <+: key := by
  rcases stored with queued | active
  · exact absurd (.inl queued) gone
  · refine ⟨active, Classical.byContradiction fun outside => gone (.inr ?_)⟩
    rwa [delete_prefix_lookup, if_neg outside]

theorem moves_leaves (sound : Sound worker) (flying : Flying worker) (moves : Moves worker act next)
    (stored : Stored worker.tables key value)
    (gone : ¬ Stored next.tables key value) : Delivered worker key value act ↔ Reads key value act := by
  have soundNext := moves_sound sound moves
  have absent : ∀ held, ¬ Stored next.tables key held :=
    fun held keyed => gone (stays_stored sound soundNext (moves_issued moves) stored keyed)
  cases moves with
  | queued dest event count numbered =>
    by_cases own : key = queueKey dest event count
    · exact absurd (.inl (by rw [own, Std.ExtTreeMap.getElem?_insert_self])) (absent (eventValue event))
    · rcases stored with queued | active
      · exact absurd (.inl (by rwa [insert_elsewhere own])) gone
      · exact absurd (.inr active) gone
  | started backoff edus msg rest taken idle =>
    obtain ⟨held, kept⟩ := mark_keeps stored
    exact absurd kept (absent held)
  | emptied id reads ok flight held done empty =>
    exact responded_delivered held done (flying.carried flight (mem_of_getElem? held) key value (deleted_leaves stored gone))
  | continued id reads ok flight held done events read =>
    refine responded_delivered held done (flying.carried flight (mem_of_getElem? held) key value (deleted_leaves stored fun kept => ?_))
    obtain ⟨other, marked⟩ := mark_keeps kept
    exact absent other marked
  | cleanedActive dest cleanable => exact iff_of_true ⟨cleanable, (deleted_leaves stored gone).2⟩ trivial
  | cleanedQueued dest cleanable =>
    refine iff_of_true ⟨cleanable, Classical.byContradiction fun outside => gone ?_⟩ trivial
    rcases stored with queued | active
    · exact .inl (by rwa [delete_prefix_lookup, if_neg outside])
    · exact .inr active
  | dispatched id msg held => exact absurd stored gone
  | flushed server => exact absurd stored gone
  | ignored backoff edus msg rest taken busy => exact absurd stored gone
  | retried backoff edus msg rest taken tries failed events nonempty read => exact absurd stored gone
  | forgotten backoff edus msg rest taken tries failed due empty => exact absurd stored gone
  | unanswered id reads ok flight held tries => exact absurd stored gone
  | disregarded id reads ok flight held idle => exact absurd stored gone

variable {count : Nat} {acts : List Act} {last : Worker}

theorem runs_sound_flying (fits : count < 2 ^ 64) (ran : runs step (start count) acts = some last) :
    Sound last ∧ Flying last := by
  have preserved : ∀ state act next, (Sound state ∧ Flying state) → step state act = some next → Sound next ∧
    Flying next := by
    intro state act next ⟨sound, flying⟩ stepped
    exact ⟨moves_sound sound (step_moves stepped), moves_flying sound flying (step_moves stepped)⟩
  have begins : Sound (start count) ∧ Flying (start count) := ⟨start_sound fits, start_flying⟩
  exact runs_invariant preserved begins ran

theorem runs_awaited (met : AllMeet step Meets (start count) acts) (ran : runs step (start count) acts = some last) :
    Awaited last dest :=
  runs_meeting_invariant (fun _ _ _ awaited met stepped => moves_awaited awaited met (step_moves stepped))
    start_awaited met ran

end

def remote : ServerName := ⟨[114, 46, 99, 111], by decide⟩

def sampleId : RawPduId := ⟨List.replicate 16 7, by decide⟩

def retriedRun : List Act := [.queue (.federation remote) (.pdu sampleId), .dispatch 0, .request false none,
    .respond 0 (fun _ => true) false, .flush remote, .request false none]

theorem retried_run : (runs step (start 5) retriedRun).isSome = true := by decide +kernel

theorem retried_answered : (step ((runs step (start 5) retriedRun).get retried_run)
    (.respond 0 (fun _ => true) true)).isSome = true := by decide +kernel

-- The failed transaction had but an EDU, so that the retry finds no rows and the destination is forgotten with an event
-- queued.
def strandedRun : List Act :=
  [.flush remote, .request false (some [⟨[123, 125], by decide⟩]), .respond 0 (fun _ => true) false,
    .queue (.federation remote) (.pdu sampleId), .dispatch 0, .request false none]

theorem stranded_run : (runs step (start 5) strandedRun).isSome = true := by decide +kernel

def unreadRun : List Act := [.queue (.federation remote) (.pdu sampleId), .dispatch 0, .request false none]

theorem unread_run : (runs step (start 5) unreadRun).isSome = true := by decide +kernel

end GaussMatrix.Sending
