import GaussMatrix.Client.Uiaa
import GaussMatrix.Library.Outcome
import GaussMatrix.Users.CrossSigning

namespace GaussMatrix.Client.UploadSigningKeys

open Collections Json List Outcome Uiaa Users.CrossSigning

structure Keys where
  masterKey : Option Value
  selfSigningKey : Option Value
  userSigningKey : Option Value

def Keys.key (keys : Keys) : Kind → Option Value
  | .master => keys.masterKey
  | .selfSigning => keys.selfSigningKey
  | .userSigning => keys.userSigningKey

structure State where
  tables : Tables
  sessions : Sessions

structure Upload where
  keys : Keys
  body : Body
  deviceManagement : Bool
  oidcDevice : Bool
  wellKnownClient : Option String

inductive Response where
  | done
  | uiaa (info : UiaaInfo)
  | failed (message : String)
  | refused (error : KeyError)
  | panicked

section

variable {Key : Type} [DecidableEq Key] (serde : Serde Key) (userId : String)

def forbidden (message : String) : Except KeyError Unit := .error (.request message)

def masterKeyMatches (tables : Tables) (newMaster : Value) : Except KeyError Bool :=
  match parseMasterKey serde newMaster with
  | .error error => .error error
  | .ok new =>
    match getMasterKey serde tables none userId fun _ => true with
    | .error .notFound => .ok false
    | .error error => .error error
    | .ok existing =>
      match parseMasterKey serde existing with
      | .error error => .error error
      | .ok parsed => if parsed ≠ new then .error (.request "Tried to change an existing master key, UIA required") else .ok true

def deserialize (key : Value) : Except KeyError Key := (serde.deserialize key).mapError KeyError.request

-- An absent key may come only with a master key where there was none, a present one has to be the same.
def checkKey (fetched : Except KeyError Value) (new : Option Value) (empty : Bool) (adding changing : String) :
    Except KeyError Unit :=
  match new with
  | none => .ok ()
  | some new =>
    match fetched with
    | .error .notFound => if empty then .ok () else forbidden adding
    | .error error => .error error
    | .ok existing => do
      let before ← deserialize serde existing
      let after ← deserialize serde new
      if before ≠ after then forbidden changing

def checkMasterKey (tables : Tables) : Option Value → Except KeyError Bool
  | some newMaster => (masterKeyMatches serde userId tables newMaster).map not
  | none => .ok false

def checkForNewKeys (tables : Tables) (keys : Keys) : Except KeyError (Option Unit) := do
  let empty ← checkMasterKey serde userId tables keys.masterKey
  checkKey serde (getUserSigningKey tables) keys.userSigningKey empty
    "Tried to update an existing user signing key, UIA required"
    "Tried to change an existing user signing key, UIA required"
  checkKey serde (getSelfSigningKey serde tables none userId fun _ => true) keys.selfSigningKey empty
    "Tried to add a new signing key independently from the master key" "Tried to update an existing self signing key, UIA required"
  pure (if empty then none else some ())

def persistSigningKeys (state : State) (keys : Keys) : Response × State :=
  match addCrossSigningKeys serde state.tables keys.masterKey keys.selfSigningKey keys.userSigningKey with
  | (.ok _, tables) => (.done, { state with tables := tables })
  | (.error error, tables) => (.refused error, { state with tables := tables })

section

variable (services : Services) (state : State) (upload : Upload)

def createOauthUiaa : Response × State :=
  match upload.wellKnownClient with
  | none => (.failed "well_known.client must be set for cross-signing reset", state)
  | some _ =>
    if upload.body.json then
      let info : UiaaInfo := ⟨[[.oauth]], [], some services.randomString, none⟩
      (.uiaa info, { state with sessions := state.sessions.insert services.randomString info })
    else (.failed "JSON body is not valid", state)

def unguarded : Option (Response × State) :=
  match checkForNewKeys serde userId state.tables upload.keys with
  | .ok (some _) => some (.done, state)
  | .ok none => some (persistSigningKeys serde state upload.keys)
  | .error _ =>
    if upload.deviceManagement then some (persistSigningKeys serde state upload.keys)
    else if upload.oidcDevice && services.canReplaceCrossSigningKeys then some (persistSigningKeys serde state upload.keys)
    else
      match upload.oidcDevice, upload.body.auth with
      | true, .ok none => some (createOauthUiaa services state upload)
      | _, _ => none

end

def uploadSigningKeysRoute (services : Services) (user : UserId) (state : State) (upload : Upload) : Response × State :=
  match unguarded serde userId services state upload with
  | some answer => answer
  | none =>
    match authUiaa services state.sessions user upload.body with
    | (.failed message, sessions) => (.failed message, { state with sessions := sessions })
    | (.uiaa info, sessions) => (.uiaa info, { state with sessions := sessions })
    | (.accepted authed _, sessions) =>
      if authed = user then persistSigningKeys serde { state with sessions := sessions } upload.keys
      else (.panicked, { state with sessions := sessions })

end

section

variable {Key : Type} {serde : Serde Key} {tables : Tables}

def slot (tables : Tables) (kind : Kind) : Option Value := (tables.keyId kind).bind fun id => tables.keyidKey[id]?

def Separate (serde : Serde Key) (tables : Tables) (list : List (Kind × Option Value)) : Prop :=
  ∀ kind key id parsed, (kind, some key) ∈ list → parseKey serde kind key = .ok (id, parsed) → ∀ other, other ≠ kind →
    tables.keyId other ≠ some id ∧ ∀ otherKey otherId otherParsed, (other, some otherKey) ∈ list →
      parseKey serde other otherKey = .ok (otherId, otherParsed) → otherId ≠ id

theorem put_own_slot (tables : Tables) (kind : Kind) (id : String) (key : Value) :
    slot (tables.put kind id key) kind = some key := by
  rw [slot, put_key_id, if_pos rfl, Option.bind_some, put_rows, Std.ExtTreeMap.getElem?_insert_self]

theorem put_other_slot {kind other : Kind} {id : String} (different : other ≠ kind)
    (apart : tables.keyId other ≠ some id) {key : Value} : slot (tables.put kind id key) other = slot tables other := by
  rw [slot, put_key_id, if_neg different, slot, put_rows]
  cases named : tables.keyId other with
  | none => rfl
  | some held =>
    have differs : held ≠ id := fun same => apart (by rw [named, same])
    rw [Option.bind_some, Option.bind_some, insert_elsewhere differs]

theorem separate_put {kind : Kind} {id : String} {key : Value} {parsed : Key} {rest : List (Kind × Option Value)}
    (read : parseKey serde kind key = .ok (id, parsed)) (separate : Separate serde tables ((kind, some key) :: rest)) :
    Separate serde (tables.put kind id key) rest := by
  intro later laterKey laterId laterParsed member laterRead other different
  have whole := separate later laterKey laterId laterParsed (mem_cons_of_mem _ member) laterRead other different
  refine ⟨?_, fun otherKey otherId otherParsed inRest =>
    whole.2 otherKey otherId otherParsed (mem_cons_of_mem _ inRest)⟩
  rw [put_key_id]
  by_cases own : other = kind
  · rw [if_pos own]
    intro same
    have apart := whole.2 key id parsed (own ▸ mem_cons_self) (own ▸ read)
    exact apart (Option.some.inj same)
  · rw [if_neg own]
    exact whole.1

theorem add_keys_slot {list : List (Kind × Option Value)} (nodup : (list.map Prod.fst).Nodup)
    (separate : Separate serde tables list) (kind : Kind) : slot (addKeys serde Tables.put list tables).2 kind = slot
    tables kind ∨ ∃ key, (kind, some key) ∈ list ∧ slot (addKeys serde Tables.put list tables).2 kind = some key := by
  induction list generalizing tables with
  | nil => exact .inl rfl
  | cons head rest ih =>
    rw [map_cons, nodup_cons] at nodup
    obtain ⟨first, key⟩ := head
    cases key with
    | none =>
      have fewer : Separate serde tables rest := fun later laterKey laterId laterParsed member read other different =>
        ⟨(separate later laterKey laterId laterParsed (mem_cons_of_mem _ member) read other different).1,
          fun otherKey otherId otherParsed inRest =>
            (separate later laterKey laterId laterParsed (mem_cons_of_mem _ member) read other different).2 otherKey
              otherId otherParsed (mem_cons_of_mem _ inRest)⟩
      rcases ih nodup.2 fewer with same | ⟨found, member, placed⟩
      · exact .inl same
      · exact .inr ⟨found, mem_cons_of_mem _ member, placed⟩
    | some key =>
      rw [addKeys]
      split
      next => exact .inl rfl
      next id parsed read =>
        rcases ih nodup.2 (separate_put read separate) with same | ⟨found, member, placed⟩
        · rw [same]
          by_cases own : kind = first
          · rw [own, put_own_slot]
            exact .inr ⟨key, mem_cons_self, rfl⟩
          · exact .inl (put_other_slot own (separate first key id parsed mem_cons_self read kind own).1)
        · exact .inr ⟨found, mem_cons_of_mem _ member, placed⟩

end

section

variable {Key : Type} {serde : Serde Key} {userId : String} {tables : Tables}

def fetch (serde : Serde Key) (userId : String) (tables : Tables) : Kind → Except KeyError Value
  | .master => getMasterKey serde tables none userId fun _ => true
  | .selfSigning => getSelfSigningKey serde tables none userId fun _ => true
  | .userSigning => getUserSigningKey tables

def view (serde : Serde Key) (userId : String) (kind : Kind) (key : Value) : Except KeyError Value :=
  if kind = .userSigning then .ok key else cleanSignatures serde key none userId fun _ => true

theorem fetch_slot (tables : Tables) (kind : Kind) :
    fetch serde userId tables kind = (slot tables kind).elim (.error .notFound) (view serde userId kind) := by
  cases kind with
  | master =>
    rw [fetch, getMasterKey, getKey, slot, Tables.keyId]
    cases (tables.useridMasterkeyid.bind fun id => tables.keyidKey[id]?) <;> rfl
  | selfSigning =>
    rw [fetch, getSelfSigningKey, getKey, slot, Tables.keyId]
    cases (tables.useridSelfsigningkeyid.bind fun id => tables.keyidKey[id]?) <;> rfl
  | userSigning =>
    rw [fetch, getUserSigningKey, slot, Tables.keyId]
    cases (tables.useridUsersigningkeyid.bind fun id => tables.keyidKey[id]?) <;> rfl

def Faithful (serde : Serde Key) (userId : String) : Prop := ∀ key parsed, serde.deserialize key = .ok parsed →
    ∃ cleaned, cleanSignatures serde key none userId (fun _ => true) = .ok cleaned ∧ serde.deserialize cleaned = .ok parsed

theorem view_faithful (faithful : Faithful serde userId) {kind : Kind} {key : Value} {parsed : Key}
    (read : serde.deserialize key = .ok parsed) :
    ∃ cleaned, view serde userId kind key = .ok cleaned ∧ serde.deserialize cleaned = .ok parsed := by
  rw [view]
  split
  · exact ⟨key, rfl, read⟩
  · exact faithful key parsed read

theorem deserialize_ok {key : Value} {parsed : Key} (done : deserialize serde key = .ok parsed) :
    serde.deserialize key = .ok parsed := by
  rw [deserialize] at done
  cases read : serde.deserialize key with
  | error message =>
    rw [read] at done
    cases done
  | ok found =>
    rw [read] at done
    cases done
    rfl

theorem persist_tables {state : State} {keys : Keys} :
    (persistSigningKeys serde state keys).2.tables =
    (addCrossSigningKeys serde state.tables keys.masterKey keys.selfSigningKey keys.userSigningKey).2 := by
  rw [persistSigningKeys]
  split
  next stored => rw [stored]
  next stored => rw [stored]

end

theorem auth_uiaa_unauthed {services : Services} {sessions : Sessions} {user : UserId} {body : Body}
    (noAuth : body.auth = .ok none) {authed : UserId}
    {session : Option UiaaInfo} : (authUiaa services sessions user body).1 ≠ .accepted authed session := by
  rw [authUiaa, noAuth]
  dsimp only
  split <;> simp

section

variable {Key : Type} [DecidableEq Key] {serde : Serde Key} {userId : String} {tables : Tables}
  {fetched : Except KeyError Value} {services : Services} {key : Value} {empty : Bool} {upload : Upload}

theorem check_key_same {existing : Value} {adding changing : String}
    (passed : checkKey serde fetched (some key) empty adding changing = .ok ()) (found : fetched = .ok existing) :
    ∃ parsed, serde.deserialize existing = .ok parsed ∧ serde.deserialize key = .ok parsed := by
  subst found
  obtain ⟨before, readBefore, rest⟩ := bind_ok passed
  obtain ⟨after, readAfter, compared⟩ := bind_ok rest
  by_cases same : before = after
  · exact ⟨before, deserialize_ok readBefore, same ▸ deserialize_ok readAfter⟩
  · rw [if_pos same] at compared
    cases compared

theorem check_key_error {adding changing : String}
    (passed : checkKey serde fetched (some key) empty adding changing = .ok ()) {error : KeyError}
    (failed : fetched = .error error) : error = .notFound := by
  subst failed
  cases error with
  | notFound => rfl
  | request message => cases passed
  | database message => cases passed

theorem master_key_absent {newMaster : Value} (matched : masterKeyMatches serde userId tables newMaster = .ok false) :
    fetch serde userId tables .master = .error .notFound := by
  rw [masterKeyMatches] at matched
  split at matched
  next => cases matched
  next =>
    split at matched
    next absent => exact absent
    next => cases matched
    next =>
      split at matched
      next => cases matched
      next => split at matched <;> cases matched

theorem check_for_new_keys_none {keys : Keys} (passed : checkForNewKeys serde userId tables keys = .ok none) :
    fetch serde userId tables .master = .error .notFound ∧
      ∀ kind, kind ≠ .master → ∃ adding changing, checkKey serde (fetch serde userId tables kind)
      (keys.key kind) true adding changing = .ok () := by
  obtain ⟨empty, decided, rest⟩ := bind_ok passed
  obtain ⟨_, userSigning, later⟩ := bind_ok rest
  obtain ⟨_, selfSigning, last⟩ := bind_ok later
  have isEmpty : empty = true := by
    cases empty with
    | true => rfl
    | false => cases last
  subst isEmpty
  refine ⟨?_, fun kind different => ?_⟩
  · cases given : keys.masterKey with
    | none =>
      rw [given] at decided
      cases decided
    | some newMaster =>
      rw [given] at decided
      obtain ⟨matched, found, negated⟩ := map_ok decided
      cases matched with
      | true => cases negated
      | false => exact master_key_absent found
  · cases kind with
    | master => exact absurd rfl different
    | selfSigning => exact ⟨_, _, selfSigning⟩
    | userSigning => exact ⟨_, _, userSigning⟩

theorem create_oauth_tables {state : State} : (createOauthUiaa services state upload).2.tables = state.tables := by
  rw [createOauthUiaa]
  split
  · rfl
  · split <;> rfl

theorem unguarded_tables {state : State} (noBypass : services.canReplaceCrossSigningKeys = false)
    (noExemption : upload.deviceManagement = false)
    {answer : Response × State} (answered : unguarded serde userId services state upload = some answer) :
    answer.2.tables = state.tables ∨ (checkForNewKeys serde userId state.tables upload.keys = .ok none ∧
    answer = persistSigningKeys serde state upload.keys) := by
  rw [unguarded] at answered
  split at answered
  next =>
    cases answered
    exact .inl rfl
  next passed => exact .inr ⟨passed, (Option.some.inj answered).symm⟩
  next =>
    rw [noExemption, noBypass, Bool.and_false, if_neg Bool.false_ne_true, if_neg Bool.false_ne_true] at answered
    split at answered
    next =>
      cases answered
      exact .inl create_oauth_tables
    next => cases answered

theorem route_unauthed (serde : Serde Key) (userId : String) (user : UserId) (state : State)
    (noAuth : upload.body.auth = .ok none)
    (noBypass : services.canReplaceCrossSigningKeys = false) (noExemption : upload.deviceManagement = false) :
    (uploadSigningKeysRoute serde userId services user state upload).2.tables = state.tables ∨
      (checkForNewKeys serde userId state.tables upload.keys = .ok none ∧
      (uploadSigningKeysRoute serde userId services user state upload).2.tables =
        (addCrossSigningKeys serde state.tables upload.keys.masterKey upload.keys.selfSigningKey upload.keys.userSigningKey).2) := by
  rw [uploadSigningKeysRoute]
  split
  next answer answered =>
    rcases unguarded_tables noBypass noExemption answered with same | ⟨passed, rfl⟩
    · exact .inl same
    · exact .inr ⟨passed, persist_tables⟩
  next =>
    refine .inl ?_
    split
    next => rfl
    next => rfl
    next authed session sessions accepted => exact absurd (congrArg Prod.fst accepted) (auth_uiaa_unauthed noAuth)

end

def publicKeys {Key : Type} (serde : Serde Key) (tables : Tables) (keys : Keys) (kind : Kind) : List String :=
  (tables.keyId kind).toList ++
    (((keys.key kind).bind fun key => (parseKey serde kind key).toOption).map Prod.fst).toList

variable {Key : Type} {serde : Serde Key} {tables : Tables} {keys : Keys} {kind : Kind} {key : Value} {id : String}

theorem held_public_key (held : tables.keyId kind = some id) : id ∈ publicKeys serde tables keys kind := by
  rw [publicKeys, held]
  exact mem_cons_self

theorem new_public_key {parsed : Key} (given : keys.key kind = some key)
    (read : parseKey serde kind key = .ok (id, parsed)) : id ∈ publicKeys serde tables keys kind := by
  rw [publicKeys, given, Option.bind_some, read]
  exact mem_append_right _ mem_cons_self

theorem in_order_key (member : (kind, some key) ∈ inOrder keys.masterKey keys.selfSigningKey keys.userSigningKey) :
    keys.key kind = some key := by
  simp only [inOrder, mem_cons, Prod.mk.injEq, not_mem_nil, or_false] at member
  rcases member with ⟨rfl, same⟩ | ⟨rfl, same⟩ | ⟨rfl, same⟩ <;> exact same.symm

theorem public_keys_separate (different : ∀ kind other, kind ≠ other →
    ∀ id ∈ publicKeys serde tables keys kind, id ∉ publicKeys serde tables keys other) :
    Separate serde tables (inOrder keys.masterKey keys.selfSigningKey keys.userSigningKey) := by
  intro kind key id parsed member read other apart
  have alone := different kind other apart.symm id (new_public_key (in_order_key member) read)
  refine ⟨fun held => alone (held_public_key held), fun otherKey otherId otherParsed inList otherRead same => ?_⟩
  exact alone (same ▸ new_public_key (in_order_key inList) otherRead)

theorem placed_same [DecidableEq Key] {userId : String} (faithful : Faithful serde userId)
    (passed : checkForNewKeys serde userId tables keys = .ok none)
    (given : keys.key kind = some key) (had : fetch serde userId tables kind ≠ .error .notFound) :
    (view serde userId kind key).map serde.deserialize = (fetch serde userId tables kind).map serde.deserialize := by
  obtain ⟨noMaster, checks⟩ := check_for_new_keys_none passed
  have other : kind ≠ .master := by
    rintro rfl
    exact had noMaster
  obtain ⟨adding, changing, checked⟩ := checks kind other
  rw [given] at checked
  cases found : fetch serde userId tables kind with
  | error error => exact absurd (found.trans (congrArg _ (check_key_error checked found))) had
  | ok existing =>
    obtain ⟨parsed, readExisting, readKey⟩ := check_key_same checked found
    obtain ⟨cleaned, viewed, readCleaned⟩ := view_faithful faithful readKey
    rw [viewed, Except.map, Except.map, readCleaned, readExisting]

theorem keys_replaced_only_with_auth {Key : Type} [DecidableEq Key] (serde : Serde Key) (userId : String)
    (faithful : Faithful serde userId) (services : Services) (user : UserId) (state : State) (upload : Upload)
    (noAuth : upload.body.auth = .ok none) (noBypass : services.canReplaceCrossSigningKeys = false)
    (noExemption : upload.deviceManagement = false)
    (different : ∀ kind other, kind ≠ other → ∀ id ∈ publicKeys serde state.tables upload.keys kind,
    id ∉ publicKeys serde state.tables upload.keys other) (kind : Kind) :
    (fetch serde userId state.tables kind ≠ .error .notFound →
      (fetch serde userId (uploadSigningKeysRoute serde userId services user state upload).2.tables kind).map serde.deserialize =
        (fetch serde userId state.tables kind).map serde.deserialize) ∧
    (fetch serde userId state.tables kind = .error .notFound →
      fetch serde userId (uploadSigningKeysRoute serde userId services user state upload).2.tables kind ≠ .error .notFound →
        fetch serde userId state.tables .master = .error .notFound) := by
  rcases route_unauthed serde userId user state noAuth noBypass noExemption with same | ⟨passed, stored⟩
  · rw [same]
    exact ⟨fun _ => rfl, fun absent present => absurd absent present⟩
  · refine ⟨fun had => ?_, fun _ _ => (check_for_new_keys_none passed).1⟩
    have nodup : ((inOrder upload.keys.masterKey upload.keys.selfSigningKey upload.keys.userSigningKey).map Prod.fst).Nodup :=
      (by decide : ([.master, .selfSigning, .userSigning] : List Kind).Nodup)
    rw [stored, addCrossSigningKeys, fetch_slot]
    rcases add_keys_slot nodup (public_keys_separate different) kind with same | ⟨key, member, placed⟩
    · rw [same, fetch_slot]
    · rw [placed]
      exact placed_same faithful passed (in_order_key member) had

def passwordServer : Services where
  parseUserId := fun username => some ⟨username, "h"⟩
  elementHacks := false
  passwordHash := fun _ => some "secret"
  verifyPassword := fun password hash => password == hash
  authLdap := fun _ _ => false
  ssoSession := fun _ => false
  tryConsume := fun _ => false
  canReplaceCrossSigningKeys := false
  hasPassword := true
  ldapEnabled := false
  oidcDeviceIdp := none
  origin := none
  identityProviders := 0
  defaultProvider := none
  jwtEnabled := false
  validateUser := fun _ => .error "no key"
  userExists := fun _ => true
  randomString := "r"

theorem read_key_fields_set {key : Value} {fields : BTreeMap String Value} (object : key.asObject = some fields)
    (written : Value) : readKeyFields (Value.set fields "signatures" written) = readKeyFields key := by
  rw [readKeyFields, readKeyFields, Value.get_set_elsewhere object (by decide),
    Value.get_set_elsewhere object (by decide),
    Value.get_set_elsewhere object (by decide)]

theorem signers_set {fields signatures : BTreeMap String Value} :
    signers (Value.set fields "signatures" (Value.ofObject signatures)) = signatures.toList.map Prod.fst := by
  rw [signers, Value.get, Value.set, Value.as_object_of_object, Option.bind_some, Std.ExtTreeMap.getElem?_insert_self,
    Option.bind_some, Value.as_object_of_object]
  rfl

theorem sample_deserialize {key : Value} {parsed : SampleKey} : sampleSerde.deserialize key = .ok parsed ↔
    readKeyFields key = some parsed ∧ checkUserId parsed.userId = .ok () ∧ (signers key).forM checkUserId = .ok () := by
  constructor
  · intro read
    obtain ⟨fields, held, rest⟩ := bind_ok read
    obtain ⟨_, owned, later⟩ := bind_ok rest
    obtain ⟨_, signed, last⟩ := bind_ok later
    cases last
    cases found : readKeyFields key with
    | none =>
      rw [found] at held
      cases held
    | some other =>
      rw [found] at held
      cases held
      exact ⟨rfl, owned, signed⟩
  · rintro ⟨held, owned, signed⟩
    rw [sampleSerde]
    dsimp only
    rw [held, signed]
    dsimp only [Option.elim]
    rw [show (Except.ok parsed >>= fun read => do checkUserId read.userId; Except.ok (); return read : Except String SampleKey) =
      (do checkUserId parsed.userId; Except.ok (); return parsed) from rfl, owned]
    rfl

theorem sample_faithful (userId : String) : Faithful sampleSerde userId := by
  intro key parsed read
  obtain ⟨held, owned, signed⟩ := sample_deserialize.mp read
  rw [cleanSignatures]
  split
  next fields signatures object found =>
    have names : signers key = signatures.toList.map Prod.fst := by
      rw [signers, found]
      rfl
    have kept : (signatures.filter fun user _ => (none : Option String) == some userId || user == userId || true) = signatures := by
      refine Std.ExtTreeMap.ext_getElem? fun name => ?_
      simp only [Bool.or_true, Std.ExtTreeMap.getElem?_filter']
      cases signatures[name]? <;> rfl
    rw [names] at signed
    have valid : (signatures.toList.forM fun row => sampleSerde.userId row.1) = .ok () := forM_map.symm.trans signed
    rw [valid]
    refine ⟨_, rfl, sample_deserialize.mpr ⟨(read_key_fields_set object _).trans held, owned, ?_⟩⟩
    rw [kept, signers_set]
    exact signed
  next => exact ⟨key, rfl, read⟩

def withSelfSigning : State :=
  ⟨(addCrossSigningKeys sampleSerde ⟨∅, none, none, none⟩ none (some (sampleKey "self_signing" "S")) none).2, ∅⟩

def firstMaster : Upload :=
  ⟨⟨some (sampleKey "master" "M"), some (sampleKey "self_signing" "S"), none⟩, ⟨true, .ok none⟩, false, false, none⟩

theorem first_master_keeps :
    (fetch sampleSerde "@u:h" (uploadSigningKeysRoute sampleSerde "@u:h" passwordServer ⟨"u", "h"⟩ withSelfSigning
    firstMaster).2.tables .selfSigning).map
        sampleSerde.deserialize = (fetch sampleSerde "@u:h" withSelfSigning.tables .selfSigning).map sampleSerde.deserialize := by
  refine (keys_replaced_only_with_auth sampleSerde "@u:h"
    (sample_faithful "@u:h") passwordServer ⟨"u", "h"⟩ withSelfSigning firstMaster rfl rfl rfl ?_ .selfSigning).1 ?_
  · decide +kernel
  · have parses : ((fetch sampleSerde "@u:h" withSelfSigning.tables .selfSigning).toOption.isSome) = true := by decide +kernel
    intro absent
    rw [absent] at parses
    cases parses

end GaussMatrix.Client.UploadSigningKeys
