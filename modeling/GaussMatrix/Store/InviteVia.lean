import GaussMatrix.Store.Backend

namespace GaussMatrix.Store.InviteVia

open Collections List Std ExtTreeMap

abbrev Call := Bytes × List Bytes

variable (db : DomainTree Bytes) (roomId only : Bytes) (call : Call) (calls : List Call)

-- A row holds the names of its servers, none of them empty, joined by 0xFF. The last name of each row is taken.
def serversInviteVia : List Bytes := (prefixScan db roomId).filterMap fun row => (row.2.splitOn 0xFF).getLast?

def addServersInviteVia : DomainTree Bytes :=
  let servers := ((serversInviteVia db call.1 ++ call.2).insertionSort (compare · · ≠ .gt)).destutter (· ≠ ·)
  db.insert call.1 ([0xFF].intercalate servers)

def Exact : Prop :=
  let servers := serversInviteVia (calls.foldl addServersInviteVia ∅) roomId
  servers.Nodup ∧ ∀ server, server ∈ servers ↔ ∃ call ∈ calls, call.1 = roomId ∧ server ∈ call.2

def Held : Prop := ∀ key value, db[key]? = some value → roomId <+: key → key = roomId ∧ value = only

-- The calls for the room name one server only, and no other room has an id that goes on from this one's.
structure Alone : Prop where
  own : call.1 = roomId → call.2 ≠ [] ∧ ∀ server ∈ call.2, server = only
  apart : roomId <+: call.1 → call.1 = roomId

variable {db roomId only call calls}

theorem destutter_same {servers : List Bytes} (found : servers ≠ []) (same : ∀ server ∈ servers, server = only) :
    servers.destutter (· ≠ ·) = [only] := by
  cases servers with
  | nil => exact absurd rfl found
  | cons first rest =>
    cases same first mem_cons_self
    rw [destutter_cons']
    induction rest with
    | nil => rfl
    | cons next rest ih =>
      cases same next (by simp)
      rw [destutter'_cons_neg rest (by simp)]
      exact ih (by simp) fun server member => same server (by grind)

theorem held_servers (free : 0xFF ∉ only) (held : Held db roomId only) :
    serversInviteVia db roomId = if db[roomId]? = some only then [only] else [] := by
  have split : only.splitOn 0xFF = [only] := by
    simpa [intercalate] using splitOn_intercalate (0xFF : UInt8) (forall_mem_singleton.mpr free) (cons_ne_nil only [])
  have rows : ∀ row ∈ prefixScan db roomId, row = (roomId, only) := fun row member =>
    have read := (prefix_scan_row _ _ _).mp member
    Prod.ext_iff.mpr (held row.1 row.2 read.1 read.2)
  have single := nodup_replicate.mp (eq_replicate_iff.mpr ⟨rfl, rows⟩ ▸ prefix_scan_nodup db roomId)
  have listed := (prefix_scan_row db roomId (roomId, only)).trans (and_iff_left prefix_rfl)
  rw [serversInviteVia, ← if_congr listed rfl rfl]
  rcases scanned : prefixScan db roomId with _ | ⟨row, _ | ⟨next, rest⟩⟩
  · rfl
  · cases rows row (scanned ▸ mem_cons_self)
    simp [split]
  · simp [scanned] at single

theorem add_held (free : 0xFF ∉ only) (held : Held db roomId only) (alone : Alone roomId only call) :
    Held (addServersInviteVia db call) roomId only := by
  intro key value read inside
  by_cases same : key = call.1
  · subst same
    cases alone.apart inside
    obtain ⟨found, own⟩ := alone.own rfl
    have all : ∀ server ∈ serversInviteVia db call.1 ++ call.2, server = only := by
      rw [held_servers free held]
      grind
    refine ⟨rfl, ?_⟩
    cases getElem?_insert_self.symm.trans read
    rw [@destutter_same only]
    · simp [intercalate]
    · exact fun empty => found (append_eq_nil_iff.mp (nil_perm.mp (empty ▸ perm_insertionSort _ _))).2
    · exact fun server member => all server ((perm_insertionSort _ _).mem_iff.mp member)
  · exact held key value ((insert_elsewhere same).symm.trans read) inside

theorem run_held (free : 0xFF ∉ only) (held : Held db roomId only) (alone : ∀ call ∈ calls, Alone roomId only call) :
    Held (calls.foldl addServersInviteVia db) roomId only ∧
      ((calls.foldl addServersInviteVia db)[roomId]? = some only ↔ db[roomId]? = some only ∨ ∃ call ∈ calls, call.1 = roomId) := by
  induction calls generalizing db with
  | nil => exact ⟨held, by simp⟩
  | cons call rest ih =>
    have first := add_held free held (alone call mem_cons_self)
    obtain ⟨last, stored⟩ := ih first fun other member => alone other (mem_cons_of_mem call member)
    refine ⟨last, stored.trans ?_⟩
    by_cases same : call.1 = roomId
    · subst same
      have read := (first _ _ getElem?_insert_self prefix_rfl).2
      exact iff_of_true (.inl (getElem?_insert_self.trans (congrArg some read))) (.inr ⟨call, mem_cons_self, rfl⟩)
    · rw [addServersInviteVia, insert_elsewhere (Ne.symm same)]
      simp [same]

theorem invite_via_exact (free : 0xFF ∉ only) (alone : ∀ call ∈ calls, Alone roomId only call) :
    Exact roomId calls := by
  obtain ⟨held, stored⟩ := @run_held ∅ roomId only calls free (fun _ _ read => by simp at read) alone
  have called := stored.trans (or_iff_right (by simp))
  simp only [Exact, held_servers free held, called]
  split
  case isTrue added =>
    obtain ⟨call, member, isRoom⟩ := added
    refine ⟨nodup_singleton _, fun server =>
      mem_singleton.trans ⟨?_, fun ⟨other, member, isRoom, given⟩ => ((alone other member).own isRoom).2 server given⟩⟩
    rintro rfl
    obtain ⟨found, own⟩ := (alone call member).own isRoom
    obtain ⟨first, given⟩ := exists_mem_of_ne_nil _ found
    exact ⟨call, member, isRoom, own first given ▸ given⟩
  case isFalse unadded => exact ⟨nodup_nil, fun server => iff_of_false not_mem_nil fun ⟨call, member, isRoom, _⟩ => unadded ⟨call, member, isRoom⟩⟩

def repeatedCalls : List Call := [([33], [[97]]), ([34], [[98], [99]]), ([33], [[97], [97]])]

theorem repeated_server_exact : serversInviteVia (repeatedCalls.foldl addServersInviteVia ∅) [33] = [[97]] ∧
    Exact [33] repeatedCalls := by
  refine ⟨by decide +kernel, @invite_via_exact _ [97] _ (by decide) fun call member => ?_⟩
  simp only [repeatedCalls, mem_cons, not_mem_nil, or_false] at member
  rcases member with rfl | rfl | rfl
  · exact ⟨fun _ => by decide, fun _ => rfl⟩
  · exact ⟨fun same => absurd same (by decide), fun inside => absurd inside (by decide)⟩
  · exact ⟨fun _ => by decide, fun _ => rfl⟩

-- Of two servers added at once the first is never read back.
theorem first_server_lost : ¬ Exact [33] [([33], [[97], [98]])] := by
  intro exact
  have lost := (exact.2 [97]).mpr ⟨_, mem_cons_self, rfl, mem_cons_self⟩
  revert lost
  decide +kernel

end GaussMatrix.Store.InviteVia
