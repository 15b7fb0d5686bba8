import GaussMatrix.Library.Json

namespace GaussMatrix.Users.CrossSigning

open Collections Json List Std

inductive KeyError where
  | notFound
  | request (message : String)
  | database (message : String)

-- How the JSON of a cross-signing key is read, the values of its keys in the order of their ids, and which texts are
-- user ids.
structure Serde (Key : Type) where
  deserialize : Value → Except String Key
  keys : Key → List String
  userId : String → Except String Unit

inductive Kind where
  | master
  | selfSigning
  | userSigning
deriving DecidableEq

instance : Fintype Kind := ⟨{.master, .selfSigning, .userSigning}, fun kind => by cases kind <;> decide⟩

structure Tables where
  keyidKey : BTreeMap String Value
  useridMasterkeyid : Option String
  useridSelfsigningkeyid : Option String
  useridUsersigningkeyid : Option String

def Tables.keyId (tables : Tables) : Kind → Option String
  | .master => tables.useridMasterkeyid
  | .selfSigning => tables.useridSelfsigningkeyid
  | .userSigning => tables.useridUsersigningkeyid

def Tables.put (tables : Tables) (kind : Kind) (id : String) (key : Value) : Tables :=
  let rows := tables.keyidKey.insert id key
  match kind with
  | .master => { tables with keyidKey := rows, useridMasterkeyid := some id }
  | .selfSigning => { tables with keyidKey := rows, useridSelfsigningkeyid := some id }
  | .userSigning => { tables with keyidKey := rows, useridUsersigningkeyid := some id }

section

variable {Key State : Type} (serde : Serde Key)

def Kind.title : Kind → String
  | .master => "Master key"
  | .selfSigning => "Self signing key"
  | .userSigning => "User signing key"

def Kind.invalid (kind : Kind) (message : String) : String :=
  match kind with
  | .master => "Invalid master key"
  | .selfSigning => s!"Invalid self signing key: {message}"
  | .userSigning => "Invalid user signing key"

def parseKey (kind : Kind) (key : Value) : Except KeyError (String × Key) :=
  match serde.deserialize key with
  | .error message => .error (.request (kind.invalid message))
  | .ok parsed =>
    match serde.keys parsed with
    | [] => .error (.request (kind.title ++ " contained no key."))
    | [id] => .ok (id, parsed)
    | _ :: _ :: _ => .error (.request (kind.title ++ " contained more than one key."))

def parseMasterKey : Value → Except KeyError (String × Key) := parseKey serde .master

def parseSelfSigningKey : Value → Except KeyError (String × Key) := parseKey serde .selfSigning

def parseUserSigningKey : Value → Except KeyError (String × Key) := parseKey serde .userSigning

def addKeys (put : State → Kind → String → Value → State) :
    List (Kind × Option Value) → State → Except KeyError Unit × State
  | [], state => (.ok (), state)
  | (_, none) :: rest, state => addKeys put rest state
  | (kind, some key) :: rest, state =>
    match parseKey serde kind key with
    | .error error => (.error error, state)
    | .ok (id, _) => addKeys put rest (put state kind id key)

def inOrder (masterKey selfSigningKey userSigningKey : Option Value) : List (Kind × Option Value) :=
  [(.master, masterKey), (.selfSigning, selfSigningKey), (.userSigning, userSigningKey)]

def addCrossSigningKeys (tables : Tables) (masterKey selfSigningKey userSigningKey : Option Value) :
    Except KeyError Unit × Tables :=
  addKeys serde Tables.put (inOrder masterKey selfSigningKey userSigningKey) tables

end

def addDeviceKeys (tables : Tables) (device : String) (keys : Value) : Tables :=
  { tables with keyidKey := tables.keyidKey.insert device keys }

def addSignature (key : Value) (sender : String) (signature : String × String) : Except KeyError Value :=
  match key.asObject, key.get "signatures" with
  | some fields, some signatures =>
    match signatures.asObject with
    | none => .error (.database "key in keyid_key has invalid signatures field.")
    | some users =>
      match ((users[sender]?).getD (.object [])).asObject with
      | none => .error (.database "signatures in keyid_key for a user is invalid.")
      | some own => .ok (Value.set fields "signatures" (Value.set users sender (Value.set own signature.1 (.string signature.2))))
  | _, _ => .error (.database "key in keyid_key has no signatures field")

def signKey (tables : Tables) (keyId : String) (signature : String × String) (sender : String) :
    Except KeyError Unit × Tables :=
  match tables.keyidKey[keyId]? with
  | none => (.error (.request "Tried to sign nonexistent key"), tables)
  | some key =>
    match addSignature key sender signature with
    | .error error => (.error error, tables)
    | .ok signed => (.ok (), { tables with keyidKey := tables.keyidKey.insert keyId signed })

section

variable {Key : Type} (serde : Serde Key)

def cleanSignatures (key : Value) (senderUser : Option String) (userId : String) (allowed : String → Bool) :
    Except KeyError Value :=
  match key.asObject, (key.get "signatures").bind Value.asObject with
  | some fields, some signatures =>
    match signatures.toList.forM fun row => serde.userId row.1 with
    | .error message => .error (.database s!"Invalid user ID in database: {message}")
    | .ok _ =>
      .ok (Value.set fields "signatures"
        (Value.ofObject (signatures.filter fun user _ => senderUser == some userId || user == userId || allowed user)))
  | _, _ => .ok key

variable (tables : Tables)

def getDeviceKeys (device : String) : Except KeyError Value :=
  match tables.keyidKey[device]? with
  | some keys => .ok keys
  | none => .error .notFound

def getKey (keyId : Option String) (senderUser : Option String) (userId : String) (allowed : String → Bool) :
    Except KeyError Value :=
  match keyId.bind fun id => tables.keyidKey[id]? with
  | none => .error .notFound
  | some key => cleanSignatures serde key senderUser userId allowed

def getMasterKey (senderUser : Option String) (userId : String) (allowed : String → Bool) : Except KeyError Value :=
  getKey serde tables tables.useridMasterkeyid senderUser userId allowed

def getSelfSigningKey (senderUser : Option String) (userId : String) (allowed : String → Bool) :
    Except KeyError Value :=
  getKey serde tables tables.useridSelfsigningkeyid senderUser userId allowed

def getUserSigningKey : Except KeyError Value :=
  match tables.useridUsersigningkeyid.bind fun id => tables.keyidKey[id]? with
  | none => .error .notFound
  | some key => .ok key

end

inductive Call where
  | addDeviceKeys (device : String) (keys : Value)
  | addCrossSigningKeys (masterKey selfSigningKey userSigningKey : Option Value)
  | signKey (keyId : String) (signature : String × String) (sender : String)

structure Uploads where
  devices : BTreeMap String Value
  keys : Kind → Option (String × Value)

def signedBy (sender : String) (signature : String × String) (key : Value) : Value :=
  match addSignature key sender signature with
  | .ok signed => signed
  | .error _ => key

def Uploads.sign (uploads : Uploads) (keyId : String) (signature : String × String) (sender : String) : Uploads where
  devices :=
    match uploads.devices[keyId]? with
    | some keys => uploads.devices.insert keyId (signedBy sender signature keys)
    | none => uploads.devices
  keys := fun kind => (uploads.keys kind).map fun entry =>
    (entry.1, if entry.1 = keyId then signedBy sender signature entry.2 else entry.2)

def Uploads.put (uploads : Uploads) (kind : Kind) (id : String) (key : Value) : Uploads :=
  { uploads with keys := Function.update uploads.keys kind (some (id, key)) }

section

variable {Key : Type} (serde : Serde Key)

def apply (tables : Tables) : Call → Tables
  | .addDeviceKeys device keys => addDeviceKeys tables device keys
  | .addCrossSigningKeys masterKey selfSigningKey userSigningKey =>
    (addCrossSigningKeys serde tables masterKey selfSigningKey userSigningKey).2
  | .signKey keyId signature sender => (signKey tables keyId signature sender).2

def note (uploads : Uploads) : Call → Uploads
  | .addDeviceKeys device keys => { uploads with devices := uploads.devices.insert device keys }
  | .addCrossSigningKeys masterKey selfSigningKey userSigningKey =>
    (addKeys serde Uploads.put (inOrder masterKey selfSigningKey userSigningKey) uploads).2
  | .signKey keyId signature sender => uploads.sign keyId signature sender

def stored (calls : List Call) : Tables := calls.foldl (apply serde) ⟨∅, none, none, none⟩

def uploaded (calls : List Call) : Uploads := calls.foldl (note serde) ⟨∅, fun _ => none⟩

end

def Distinct (uploads : Uploads) : Prop :=
  ∀ kind, ∀ entry ∈ uploads.keys kind, uploads.devices.contains entry.1 = false ∧ ∀ other, other ≠ kind →
    ∀ another ∈ uploads.keys other, another.1 ≠ entry.1

instance (uploads : Uploads) : Decidable (Distinct uploads) :=
  inferInstanceAs (Decidable (∀ kind, ∀ entry ∈ uploads.keys kind,
    uploads.devices.contains entry.1 = false ∧ ∀ other, other ≠ kind → ∀ another ∈ uploads.keys other, another.1 ≠ entry.1))

variable {kind : Kind} {signature : String × String}

section

variable {Key : Type} {serde : Serde Key} {tables : Tables} {uploads : Uploads}

def Holds (tables : Tables) (id : String) (key : Value) : Prop := tables.keyidKey[id]? = some key

structure Refines (tables : Tables) (uploads : Uploads) : Prop where
  named : ∀ kind, tables.keyId kind = (uploads.keys kind).map Prod.fst
  keys : ∀ kind id key, uploads.keys kind = some (id, key) → Holds tables id key
  devices : ∀ device keys, uploads.devices[device]? = some keys → Holds tables device keys

theorem put_rows {id : String} {key : Value} : (tables.put kind id key).keyidKey = tables.keyidKey.insert id key := by
  cases kind <;> rfl

theorem put_key_id (tables : Tables) (kind other : Kind) (id : String) (key : Value) :
    (tables.put kind id key).keyId other = if other = kind then some id else tables.keyId other := by
  cases kind <;> cases other <;> rfl

theorem uploads_put_keys (uploads : Uploads) (kind other : Kind) (id : String) (key : Value) :
    (uploads.put kind id key).keys other = if other = kind then some (id, key) else uploads.keys other := by
  by_cases own : other = kind
  · rw [if_pos own, own]
    exact Function.update_self ..
  · rw [if_neg own]
    exact Function.update_of_ne own ..

variable {final : Uploads} {list : List (Kind × Option Value)} {after : Tables} {id : String} {key : Value}

theorem holds_inserted {rows : BTreeMap String Value} (inserted : after.keyidKey = rows.insert id key) :
    Holds after id key := by
  rw [Holds, inserted, ExtTreeMap.getElem?_insert_self]

theorem holds_elsewhere {other : String} {value : Value} (holds : Holds tables other key) (different : other ≠ id)
    (inserted : after.keyidKey = tables.keyidKey.insert id value) : Holds after other key := by
  rw [Holds, inserted, insert_elsewhere different]
  exact holds

theorem note_keys_other (absent : kind ∉ list.map Prod.fst) (uploads : Uploads) :
    (addKeys serde Uploads.put list uploads).2.keys kind = uploads.keys kind := by
  induction list generalizing uploads with
  | nil => rfl
  | cons head rest ih =>
    rw [map_cons, mem_cons, not_or] at absent
    obtain ⟨first, key⟩ := head
    cases key with
    | none => exact ih absent.2 uploads
    | some key =>
      rw [addKeys]
      split
      · rfl
      · rw [ih absent.2, uploads_put_keys, if_neg absent.1]

theorem note_keys_devices (list : List (Kind × Option Value)) (uploads : Uploads) :
    (addKeys serde Uploads.put list uploads).2.devices = uploads.devices := by
  induction list generalizing uploads with
  | nil => rfl
  | cons head rest ih =>
    obtain ⟨first, key⟩ := head
    cases key with
    | none => exact ih uploads
    | some key =>
      rw [addKeys]
      split
      · rfl
      · exact ih _

structure Settles (final : Uploads) (tables : Tables) (uploads : Uploads) : Prop where
  named : ∀ kind, tables.keyId kind = (uploads.keys kind).map Prod.fst
  keys : ∀ kind id key, uploads.keys kind = some (id, key) → final.keys kind = some (id, key) → Holds tables id key
  devices : ∀ device keys, uploads.devices[device]? = some keys → Holds tables device keys

theorem put_settles (settles : Settles final tables uploads) (distinct : Distinct final)
    (same : final.devices = uploads.devices)
    (last : final.keys kind = some (id, key)) : Settles final (tables.put kind id key) (uploads.put kind id key) := by
  obtain ⟨undeviced, others⟩ := distinct kind (id, key) last
  refine ⟨fun other => ?_, fun other otherId otherKey now finally' => ?_, fun device keys held => ?_⟩
  · rw [put_key_id, uploads_put_keys]
    by_cases own : other = kind
    · rw [if_pos own, if_pos own, Option.map_some]
    · rw [if_neg own, if_neg own]
      exact settles.named other
  · rw [uploads_put_keys] at now
    by_cases own : other = kind
    · rw [if_pos own] at now
      cases now
      exact holds_inserted put_rows
    · rw [if_neg own] at now
      exact holds_elsewhere (settles.keys other otherId otherKey now finally') (others other own (otherId, otherKey) finally') put_rows
  · refine holds_elsewhere (settles.devices device keys held) ?_ put_rows
    rintro rfl
    have present : final.devices.contains device = true := (contains_iff_some _ _).mpr ⟨keys, same ▸ held⟩
    rw [undeviced] at present
    cases present

theorem add_keys_settles (nodup : (list.map Prod.fst).Nodup) (distinct : Distinct final)
    (settles : Settles final tables uploads) (reached : (addKeys serde Uploads.put list uploads).2 = final) :
    Settles final (addKeys serde Tables.put list tables).2 final := by
  induction list generalizing tables uploads with
  | nil =>
    cases reached
    exact settles
  | cons head rest ih =>
    rw [map_cons, nodup_cons] at nodup
    obtain ⟨kind, key⟩ := head
    cases key with
    | none => exact ih nodup.2 settles reached
    | some key =>
      rw [addKeys] at reached ⊢
      split at reached
      next error parsed =>
        cases reached
        exact settles
      next id value parsed =>
        have last : final.keys kind = some (id, key) := by
          rw [← reached, note_keys_other nodup.1, uploads_put_keys, if_pos rfl]
        have same : final.devices = uploads.devices := by rw [← reached, note_keys_devices, Uploads.put]
        exact ih nodup.2 (put_settles settles distinct same last) reached

theorem add_cross_signing_keys_refines {masterKey selfSigningKey userSigningKey : Option Value}
    (refines : Refines tables uploads)
    (distinct : Distinct (note serde uploads (.addCrossSigningKeys masterKey selfSigningKey userSigningKey))) :
    Refines (apply serde tables (.addCrossSigningKeys masterKey selfSigningKey userSigningKey))
      (note serde uploads (.addCrossSigningKeys masterKey selfSigningKey userSigningKey)) := by
  have begun : Settles (note serde uploads (.addCrossSigningKeys masterKey selfSigningKey userSigningKey))
    tables uploads :=
    ⟨refines.named, fun kind id key now _ => refines.keys kind id key now, refines.devices⟩
  have nodup : ((inOrder masterKey selfSigningKey userSigningKey).map Prod.fst).Nodup :=
    (by decide : ([.master, .selfSigning, .userSigning] : List Kind).Nodup)
  have settled := add_keys_settles nodup distinct begun rfl
  exact ⟨settled.named, fun kind id key now => settled.keys kind id key now now, settled.devices⟩

theorem add_device_keys_refines {device : String} {keys : Value} (refines : Refines tables uploads)
    (distinct : Distinct (note serde uploads (.addDeviceKeys device keys))) :
    Refines (apply serde tables (.addDeviceKeys device keys)) (note serde uploads (.addDeviceKeys device keys)) := by
  refine ⟨refines.named, fun kind id key now => ?_, fun other otherKeys held => ?_⟩
  · refine holds_elsewhere (refines.keys kind id key now) ?_ rfl
    rintro rfl
    have absent := (distinct kind (id, key) now).1
    rw [note, ExtTreeMap.contains_insert_self] at absent
    cases absent
  · rw [note] at held
    by_cases own : other = device
    · rw [own, ExtTreeMap.getElem?_insert_self] at held
      cases held
      rw [own]
      exact holds_inserted rfl
    · dsimp only at held
      rw [insert_elsewhere own] at held
      exact holds_elsewhere (refines.devices other otherKeys held) own rfl

theorem sign_key_holds {keyId sender : String} (holds : Holds tables id key) :
    Holds (signKey tables keyId signature sender).2 id (if id = keyId then signedBy sender signature key else key) := by
  rw [signKey]
  by_cases own : id = keyId
  · rw [if_pos own, ← own, holds, signedBy]
    dsimp only
    cases addSignature key sender signature with
    | error error => exact holds
    | ok signed => exact holds_inserted rfl
  · rw [if_neg own]
    split
    · exact holds
    · split
      · exact holds
      · exact holds_elsewhere holds own rfl

theorem sign_devices {keyId sender device : String} {keys : Value}
    (held : (uploads.sign keyId signature sender).devices[device]? = some keys) : ∃ before, uploads.devices[device]? =
    some before ∧ keys = if device = keyId then signedBy sender signature before else before := by
  rw [Uploads.sign] at held
  by_cases own : device = keyId
  · cases row : uploads.devices[keyId]? with
    | none =>
      rw [row, own] at held
      cases row.symm.trans held
    | some before =>
      rw [row, own] at held
      exact ⟨before, own ▸ row, by rw [if_pos own, Option.some.inj (ExtTreeMap.getElem?_insert_self.symm.trans held)]⟩
  · refine ⟨keys, ?_, (if_neg own).symm⟩
    cases row : uploads.devices[keyId]? with
    | none =>
      rw [row] at held
      exact held
    | some before =>
      rw [row] at held
      exact (insert_elsewhere own).symm.trans held

theorem sign_key_key_id {keyId sender : String} :
    (signKey tables keyId signature sender).2.keyId kind = tables.keyId kind := by
  rw [signKey]
  split
  · rfl
  · split
    · rfl
    · cases kind <;> rfl

theorem apply_refines (refines : Refines tables uploads) {call : Call} (distinct : Distinct (note serde uploads call)) :
    Refines (apply serde tables call) (note serde uploads call) := by
  cases call with
  | addDeviceKeys device keys => exact add_device_keys_refines refines distinct
  | addCrossSigningKeys masterKey selfSigningKey userSigningKey => exact add_cross_signing_keys_refines refines distinct
  | signKey keyId signature sender =>
    refine ⟨fun kind => ?_, fun kind id key now => ?_, fun device keys held => ?_⟩
    · rw [apply, sign_key_key_id, refines.named, note, Uploads.sign]
      dsimp only
      rw [Option.map_map]
      rfl
    · obtain ⟨entry, before, same⟩ := Option.map_eq_some_iff.mp now
      cases same
      exact sign_key_holds (refines.keys kind entry.1 entry.2 before)
    · obtain ⟨before, row, rfl⟩ := sign_devices held
      exact sign_key_holds (refines.devices device before row)

theorem stored_refines {calls : List Call} (distinct : ∀ earlier ∈ calls.inits, Distinct (uploaded serde earlier)) :
    Refines (stored serde calls) (uploaded serde calls) := by
  induction calls using reverseRecOn with
  | nil => exact ⟨fun kind => by cases kind <;> rfl, fun kind id key now => (by cases now), fun device keys held => by simp [uploaded] at held⟩
  | append_singleton calls call ih =>
    have before : ∀ earlier ∈ calls.inits, Distinct (uploaded serde earlier) := by
      intro earlier member
      refine distinct earlier ((mem_inits _ _).mpr ?_)
      exact ((mem_inits _ _).mp member).trans (prefix_append calls [call])
    have last := distinct (calls ++ [call]) ((mem_inits _ _).mpr prefix_rfl)
    rw [uploaded, foldl_append] at last ⊢
    rw [stored, foldl_append]
    exact apply_refines (ih before) last

theorem get_key_current (refines : Refines tables uploads) (last : uploads.keys kind = some (id, key))
    {senderUser : Option String} {userId : String} {allowed : String → Bool} : getKey serde tables
    (tables.keyId kind) senderUser userId allowed = cleanSignatures serde key senderUser userId allowed := by
  have row : tables.keyidKey[id]? = some key := refines.keys kind id key last
  rw [getKey, refines.named, last, Option.map_some, Option.bind_some, row]

end

structure SampleKey where
  userId : String
  usage : List String
  keys : List (String × String)
deriving DecidableEq

def checkUserId (id : String) : Except String Unit :=
  if id.toList.head? = some '@' ∧ ':' ∈ id.toList then .ok () else .error "invalid user id"

def readKeyFields (key : Value) : Option SampleKey := do
  let userId ← (key.get "user_id").bind Value.asStr
  let usage ← (key.get "usage").bind Value.asArray
  let keys ← (key.get "keys").bind Value.asObject
  return ⟨userId, ← usage.mapM Value.asStr, ← keys.toList.mapM fun row => row.2.asStr.map (row.1, ·)⟩

def signers (key : Value) : List String :=
  (((key.get "signatures").bind Value.asObject).map fun users => users.toList.map Prod.fst).getD []

def sampleSerde : Serde SampleKey where
  deserialize := fun key => do
    let parsed ← (readKeyFields key).elim (.error "missing field") .ok
    checkUserId parsed.userId
    (signers key).forM checkUserId
    return parsed
  keys := fun key => key.keys.map Prod.snd
  userId := checkUserId

def sampleKey (usage publicKey : String) : Value :=
  .object [("user_id", .string "@u:h"), ("usage", .array [.string usage]),
    ("keys", .object [("ed25519:" ++ publicKey, .string publicKey)]),
    ("signatures", .object [])]

def sampleDevice (device : String) : Value := .object [("device_id", .string device), ("signatures", .object [])]

def signedDevice : List Call :=
  [.addDeviceKeys "D" (sampleDevice "D"), .addCrossSigningKeys (some (sampleKey "master" "M"))
    (some (sampleKey "self_signing" "S")) none,
    .signKey "D" ("ed25519:S", "s1") "@u:h", .addCrossSigningKeys (some (sampleKey "master" "N")) none none,
      .signKey "N" ("ed25519:D", "s2") "@u:h"]

def textOf (key : Except KeyError Value) (field : String) : Option String :=
  (key.toOption.bind fun value => value.get field).bind Value.asStr

def deviceNamedLikeKey : List Call :=
  [.addCrossSigningKeys (some (sampleKey "master" "M")) none none, .addDeviceKeys "M" (sampleDevice "M")]

section

variable {Key State : Type} {serde : Serde Key}

-- The keys that are written, which are those before the first one refused.
def accepted (serde : Serde Key) : List (Kind × Option Value) → List (Kind × String × Value)
  | [] => []
  | (_, none) :: rest => accepted serde rest
  | (kind, some key) :: rest =>
    match parseKey serde kind key with
    | .error _ => []
    | .ok (id, _) => (kind, id, key) :: accepted serde rest

def Parses (serde : Serde Key) (list : List (Kind × Option Value)) : Prop :=
  ∀ entry ∈ list, ∀ key ∈ entry.2, (parseKey serde entry.1 key).toOption.isSome

theorem add_keys_accepted {put : State → Kind → String → Value → State} (list : List (Kind × Option Value))
    (state : State) : (addKeys serde put list state).2 = (accepted serde list).foldl
    (fun state row => put state row.1 row.2.1 row.2.2) state := by
  induction list generalizing state with
  | nil => rfl
  | cons head rest ih =>
    obtain ⟨kind, key⟩ := head
    cases key with
    | none => exact ih state
    | some key =>
      rw [addKeys, accepted]
      split
      next error refused => rfl
      next id parsed read => exact ih _

theorem add_keys_fails {put : State → Kind → String → Value → State} (list : List (Kind × Option Value))
    (state : State) : (∃ error, (addKeys serde put list state).1 = .error error) ↔ ¬ Parses serde list := by
  induction list generalizing state with
  | nil => simp [addKeys, Parses]
  | cons head rest ih =>
    obtain ⟨kind, key⟩ := head
    rw [Parses, forall_mem_cons, ← Parses]
    cases key with
    | none => simpa [addKeys] using ih state
    | some key =>
      rw [addKeys]
      cases read : parseKey serde kind key with
      | error error => simp [Except.toOption, read]
      | ok parsed => simpa [Except.toOption, read] using ih _

-- What a row of the table and the id of a kind are once the rows have been written over the tables.
def idAfter (tables : Tables) (rows : List (Kind × String × Value)) (kind : Kind) : Option String :=
  ((rows.reverse.find? (·.1 = kind)).map (·.2.1)).or (tables.keyId kind)

def rowAfter (tables : Tables) (rows : List (Kind × String × Value)) (id : String) : Option Value :=
  ((rows.reverse.find? (·.2.1 = id)).map (·.2.2)).or tables.keyidKey[id]?

theorem written_after (tables : Tables) (rows : List (Kind × String × Value)) (kind : Kind) (id : String) :
    let written := rows.foldl (fun state row => state.put row.1 row.2.1 row.2.2) tables
    written.keyId kind = idAfter tables rows kind ∧ written.keyidKey[id]? = rowAfter tables rows id := by
  induction rows using reverseRecOn with
  | nil => exact ⟨rfl, rfl⟩
  | append_singleton rows row ih =>
    intro written
    have last : written = (rows.foldl (fun state row => state.put row.1 row.2.1 row.2.2) tables).put row.1 row.2.1 row.2.2 := foldl_append
    rw [last, put_key_id, put_rows, idAfter, rowAfter, reverse_append, reverse_singleton, singleton_append,
      find?_cons, find?_cons]
    constructor
    · by_cases own : row.1 = kind
      · simp [own]
      · rw [if_neg (Ne.symm own), decide_eq_false own]
        exact ih.1
    · by_cases own : row.2.1 = id
      · simp [own]
      · rw [insert_elsewhere (Ne.symm own), decide_eq_false own]
        exact ih.2

def shown (serde : Serde Key) (senderUser : Option String) (userId : String) (allowed : String → Bool) (kind : Kind) :
    Option Value → Except KeyError Value
  | none => .error .notFound
  | some key => if kind = .userSigning then .ok key else cleanSignatures serde key senderUser userId allowed

def current (tables : Tables) (kind : Kind) : Option Value := (tables.keyId kind).bind fun id => tables.keyidKey[id]?

theorem keys_shown (tables : Tables) (senderUser : Option String) (userId : String) (allowed : String → Bool) :
    getMasterKey serde tables senderUser userId allowed = shown serde senderUser userId allowed .master
    (current tables .master) ∧
      getSelfSigningKey serde tables senderUser userId allowed = shown serde senderUser userId allowed .selfSigning
      (current tables .selfSigning) ∧
      getUserSigningKey tables = shown serde senderUser userId allowed .userSigning (current tables .userSigning) := by
  refine ⟨?_, ?_, ?_⟩
  · rw [getMasterKey, getKey, current, Tables.keyId]
    cases (tables.useridMasterkeyid.bind fun id => tables.keyidKey[id]?) <;> rfl
  · rw [getSelfSigningKey, getKey, current, Tables.keyId]
    cases (tables.useridSelfsigningkeyid.bind fun id => tables.keyidKey[id]?) <;> rfl
  · rw [getUserSigningKey, current, Tables.keyId]
    cases (tables.useridUsersigningkeyid.bind fun id => tables.keyidKey[id]?) <;> rfl

end

def oneMaster : Tables := stored sampleSerde [.addCrossSigningKeys (some (sampleKey "master" "M")) none none]

end GaussMatrix.Users.CrossSigning
