import GaussMatrix.Rooms.AuthEvents

namespace GaussMatrix.Rooms

open List Outcome RoomPowerLevelsEventOption StateRes

abbrev LevelMap := Option (List (String × Int))

def levelAt (levels : LevelMap) (key : String) : Option Int := levels.bind (·.lookup key)

variable {level : Int} {field : RoomPowerLevelsIntField}

section

variable {Content : Type} [AuthView Content]

def checkChange (current new : Option Int) (refused : Bool) (error : Error) : Except Error Unit :=
  if current = new then .ok () else if refused then .error error else .ok ()

def checkPowerLevelMaps (current new : LevelMap) (senderPowerLevel : UserPowerLevel)
    (rejectCurrentPowerLevelChange : String → Int → Bool) (error : String → Error) : Except Error Unit :=
  ((current.getD []).map Prod.fst ++ (new.getD []).map Prod.fst).forM fun key =>
    checkChange (levelAt current key) (levelAt new key)
      ((levelAt current key).any (rejectCurrentPowerLevelChange key) || (levelAt new key).any senderPowerLevel.below) (error key)

def checkIntField (current : Pdu Content) (rules : AuthorizationRules) (senderPowerLevel : UserPowerLevel)
    (newIntFields : List (RoomPowerLevelsIntField × Int)) (field : RoomPowerLevelsIntField) : Except Error Unit := do
  let currentPowerLevel ← RoomPowerLevelsEvent.getAsInt current field rules
  let name := field.asStr
  checkChange currentPowerLevel (newIntFields.lookup field)
    (senderPowerLevel.below (currentPowerLevel.getD field.defaultValue) ||
      senderPowerLevel.below ((newIntFields.lookup field).getD field.defaultValue))
    (plainError s!"sender does not have enough power to change the power level of `{name}`")

def checkRoomPowerLevels (event : Pdu Content) (current : Option (Pdu Content)) (rules : AuthorizationRules)
    (senderPowerLevel : UserPowerLevel) (roomCreators : List String) : Except Error Unit := do
  let newIntFields ← RoomPowerLevelsEvent.intFieldsMap event rules
  let newEvents ← RoomPowerLevelsEvent.events event rules
  let newNotifications ← RoomPowerLevelsEvent.notifications event rules
  let newUsers ← RoomPowerLevelsEvent.users event rules
  if rules.explicitlyPrivilegeRoomCreators && roomCreators.any fun creator => (levelAt newUsers creator).isSome then
    .error (invalidParam "creator user IDs are not allowed in the `users` field")
  else
    match current with
    | none => .ok ()
    | some current =>
      RoomPowerLevelsIntField.all.forM (checkIntField current rules senderPowerLevel newIntFields)
      let currentEvents ← RoomPowerLevelsEvent.events current rules
      checkPowerLevelMaps currentEvents newEvents senderPowerLevel (fun _ level => senderPowerLevel.below level) fun evType =>
        plainError s!"sender does not have enough power to change the `{evType}` event type power level"
      if rules.limitNotificationsPowerLevels then
        let currentNotifications ← RoomPowerLevelsEvent.notifications current rules
        checkPowerLevelMaps currentNotifications newNotifications senderPowerLevel (fun _ level => senderPowerLevel.below level) fun key =>
          plainError s!"sender does not have enough power to change the `{key}` notification power level"
      let currentUsers ← RoomPowerLevelsEvent.users current rules
      checkPowerLevelMaps currentUsers newUsers senderPowerLevel (fun user level => user != event.sender && senderPowerLevel.reached level) fun user =>
          plainError s!"sender does not have enough power to change `{user}`'s  power level"

variable {senderPowerLevel : UserPowerLevel} {rules : AuthorizationRules}

theorem level_listed {levels : LevelMap} {key : String} (found : levelAt levels key = some level) :
    key ∈ (levels.getD []).map Prod.fst := by
  obtain ⟨rows, isRows, read⟩ := Option.bind_eq_some_iff.mp found
  obtain ⟨before, after, split, _⟩ := lookup_eq_some_iff.mp read
  rw [isRows, Option.getD_some, split]
  simp

theorem checked_change {current new : Option Int} {refused : Bool} {error : Error}
    (checked : checkChange current new refused error = .ok ()) : current = new ∨ refused = false := by
  rw [checkChange] at checked
  split at checked
  case isTrue same => exact .inl same
  case isFalse => exact .inr (Bool.eq_false_iff.mpr (ite_ok checked).1)

theorem checked_map_bounded {current new : LevelMap} {reject : String → Int → Bool}
    {error : String → Error} (checked : checkPowerLevelMaps current new senderPowerLevel reject error = .ok ())
    (key : String) (level : Int) (found : levelAt new key = some level) :
    levelAt current key = some level ∨ senderPowerLevel.below level = false := by
  have listed := mem_append_right ((current.getD []).map Prod.fst) (level_listed found)
  rcases checked_change (for_ok checked key listed) with same | kept
  · exact .inl (same.trans found)
  · rw [found] at kept
    exact .inr (Bool.or_eq_false_iff.mp kept).2

theorem checked_field_bounded {current : Pdu Content} {newIntFields : List (RoomPowerLevelsIntField × Int)}
    (checked : checkIntField current rules senderPowerLevel newIntFields field = .ok ()) :
    ∃ level, RoomPowerLevelsEvent.getAsInt current field rules = .ok level ∧
      (level = newIntFields.lookup field ∨ senderPowerLevel.below ((newIntFields.lookup field).getD field.defaultValue) = false) := by
  obtain ⟨level, read, passed⟩ := bind_ok checked
  exact ⟨level, read, (checked_change passed).imp_right fun kept => (Bool.or_eq_false_iff.mp kept).2⟩

theorem int_fields_read {event : Pdu Content} {fields : List RoomPowerLevelsIntField}
    {values : List (Option (RoomPowerLevelsIntField × Int))} (distinct : fields.Nodup)
    (mapped : List.Forall₂ (fun field value =>
    (RoomPowerLevelsEvent.getAsInt event field rules).map (fun level => level.map (field, ·)) = .ok value)
      fields values) (field : RoomPowerLevelsIntField) :
    (field ∈ fields → RoomPowerLevelsEvent.getAsInt event field rules = .ok ((values.filterMap id).lookup field)) ∧
    (field ∉ fields → (values.filterMap id).lookup field = none) := by
  induction mapped with
  | nil => exact ⟨fun member => absurd member not_mem_nil, fun _ => rfl⟩
  | @cons head value tail rest read _ ih =>
    obtain ⟨fresh, tailDistinct⟩ := nodup_cons.mp distinct
    obtain ⟨level, isLevel, rfl⟩ := map_ok read
    obtain ⟨inTail, outside⟩ := ih tailDistinct
    by_cases same : field = head
    · subst same
      refine ⟨fun _ => ?_, absurd mem_cons_self⟩
      cases level with
      | none => exact isLevel.trans (congrArg Except.ok (outside fresh).symm)
      | some level => rw [isLevel]; simp
    · have skipped : ((level.map (head, ·) :: rest).filterMap id).lookup field = (rest.filterMap id).lookup field := by
        cases level with
        | none => rfl
        | some level => simp [lookup_cons, beq_eq_false_iff_ne.mpr same]
      rw [skipped]
      simp only [mem_cons, same, false_or]
      exact ⟨inTail, outside⟩

theorem int_fields_map_read {event : Pdu Content} {fields : List (RoomPowerLevelsIntField × Int)}
    (mapped : RoomPowerLevelsEvent.intFieldsMap event rules = .ok fields) :
    RoomPowerLevelsEvent.getAsInt event field rules = .ok (fields.lookup field) := by
  obtain ⟨values, read, assembled⟩ := bind_ok mapped
  cases assembled
  exact (int_fields_read (by decide) (map_all_ok read) field).1 (by cases field <;> decide)

def Privileged (rules : AuthorizationRules) (creators : List String) (user : String) : Prop :=
  rules.explicitlyPrivilegeRoomCreators = true ∧ user ∈ creators

-- The levels of all users but those left out.
def heldLevels (event : Pdu Content) (rules : AuthorizationRules) (others : List String) : Set Int :=
  {level | ∃ user, user ∉ others ∧ RoomPowerLevelsEvent.userPowerLevel event user rules = .ok (.int level)}

variable {event current : Pdu Content} {rules : AuthorizationRules} {creators others : List String} {listed : LevelMap}
  {fallback : Option Int}

section

variable (isListed : RoomPowerLevelsEvent.users event rules = .ok listed)
  (isFallback : RoomPowerLevelsEvent.getAsInt event .usersDefault rules = .ok fallback)

include isListed isFallback

theorem user_power_level_read (user : String) : RoomPowerLevelsEvent.userPowerLevel event user rules = .ok
    (.int ((levelAt listed user).getD (fallback.getD 0))) := by
  rw [RoomPowerLevelsEvent.userPowerLevel, isListed, RoomPowerLevelsEvent.getAsIntOrDefault, isFallback]
  rw [levelAt]
  dsimp only [bind, Except.bind]
  cases listed.bind (·.lookup user) <;> rfl

theorem default_held : fallback.getD 0 ∈ heldLevels event rules others := by
  obtain ⟨user, fresh⟩ := Infinite.exists_notMem_finset (others ++ (listed.getD []).map Prod.fst).toFinset
  rw [mem_toFinset, mem_append, not_or] at fresh
  refine ⟨user, fresh.1, ?_⟩
  rw [user_power_level_read isListed isFallback]
  cases found : levelAt listed user with
  | none => rfl
  | some level => exact absurd (level_listed found) fresh.2

theorem held_levels_finite : (heldLevels event rules others).Finite := by
  apply (finite_toSet (fallback.getD 0 :: (listed.getD []).map Prod.snd)).subset
  intro level held
  obtain ⟨user, _, read⟩ := held
  rw [user_power_level_read isListed isFallback] at read
  obtain rfl := UserPowerLevel.int.inj (Except.ok.inj read)
  cases found : levelAt listed user with
  | none => exact mem_cons_self
  | some level =>
    obtain ⟨rows, isRows, row⟩ := Option.bind_eq_some_iff.mp found
    obtain ⟨before, after, split, _⟩ := lookup_eq_some_iff.mp row
    rw [isRows, Option.getD_some, split]
    simp

variable (others) in
theorem top_level_exists : ∃ top, IsGreatest (heldLevels event rules others) top := by
  obtain ⟨top, held, greatest⟩ :=
    Set.exists_max_image (heldLevels event rules others) id (held_levels_finite isListed isFallback)
    ⟨_, default_held isListed isFallback⟩
  exact ⟨top, held, greatest⟩

end

theorem not_below {bound : Int} (kept : (UserPowerLevel.int level).below bound = false) : bound ≤ level := by
  simpa [UserPowerLevel.below] using kept

structure UsersBounded (event current : Pdu Content) (rules : AuthorizationRules) (senderPowerLevel : UserPowerLevel)
    (newListed listed : LevelMap) (newFallback fallback : Option Int) : Prop where
  newUsers : RoomPowerLevelsEvent.users event rules = .ok newListed
  newDefault : RoomPowerLevelsEvent.getAsInt event .usersDefault rules = .ok newFallback
  users : RoomPowerLevelsEvent.users current rules = .ok listed
  default : RoomPowerLevelsEvent.getAsInt current .usersDefault rules = .ok fallback
  defaultBounded : fallback = newFallback ∨ senderPowerLevel.below (newFallback.getD 0) = false
  listedBounded : ∀ user level, levelAt newListed user = some level → levelAt listed user = some level ∨
    senderPowerLevel.below level = false

theorem accepted_users_bounded (accepted : checkRoomPowerLevels event (some current) rules senderPowerLevel creators = .ok ()) :
    ∃ newListed listed newFallback fallback, UsersBounded event current rules senderPowerLevel newListed listed newFallback fallback := by
  obtain ⟨newIntFields, isFields, accepted⟩ := bind_ok accepted
  obtain ⟨newEvents, _, accepted⟩ := bind_ok accepted
  obtain ⟨newNotifications, _, accepted⟩ := bind_ok accepted
  obtain ⟨newListed, isNewListed, accepted⟩ := bind_ok accepted
  obtain ⟨_, fields, accepted⟩ := bind_ok (ite_ok accepted).2
  obtain ⟨currentEvents, _, accepted⟩ := bind_ok accepted
  obtain ⟨_, _, accepted⟩ := bind_ok accepted
  obtain ⟨listed, isListed, checked⟩ : ∃ listed, RoomPowerLevelsEvent.users current rules = .ok listed ∧
      checkPowerLevelMaps listed newListed senderPowerLevel (fun user level => user != event.sender && senderPowerLevel.reached level)
        (fun user => plainError s!"sender does not have enough power to change `{user}`'s  power level") = .ok () := by
    split at accepted
    case isTrue =>
      obtain ⟨_, _, accepted⟩ := bind_ok accepted
      obtain ⟨_, _, accepted⟩ := bind_ok accepted
      exact bind_ok accepted
    case isFalse => exact bind_ok accepted
  obtain ⟨fallback, isFallback, bounded⟩ := checked_field_bounded (for_ok fields .usersDefault (by decide))
  exact ⟨newListed, listed, newIntFields.lookup .usersDefault, fallback, isNewListed, int_fields_map_read isFields,
    isListed, isFallback, bounded, checked_map_bounded checked⟩

-- A sender who is no creator raises the top of the users who are none; a creator without privileges, that of all users.
theorem top_power_level_not_raised (senderPowerLevel : UserPowerLevel)
    (sender : userPowerLevel (some current) event.sender creators rules = .ok senderPowerLevel)
    (plain : ¬ Privileged rules creators event.sender)
    (accepted : checkRoomPowerLevels event (some current) rules senderPowerLevel creators = .ok ()) :
    let others := if event.sender ∈ creators then [] else creators
    ∃ newTop top, IsGreatest (heldLevels event rules others) newTop ∧ IsGreatest (heldLevels current rules others) top ∧
    newTop ≤ top := by
  intro others
  have counted : event.sender ∉ others := by
    by_cases creator : event.sender ∈ creators <;> simp [others, creator]
  obtain ⟨newListed, listed, newFallback, fallback, bounded⟩ := accepted_users_bounded accepted
  obtain ⟨newTop, newGreatest⟩ := top_level_exists others bounded.newUsers bounded.newDefault
  obtain ⟨top, greatest⟩ := top_level_exists others bounded.users bounded.default
  refine ⟨newTop, top, newGreatest, greatest, ?_⟩
  have reached : ∀ bound, senderPowerLevel.below bound = false → bound ≤ top := by
    intro bound kept
    have ordinary : (rules.explicitlyPrivilegeRoomCreators && creators.contains event.sender) = false := by
      simpa [Privileged] using plain
    rw [userPowerLevel, ordinary] at sender
    have read := user_power_level_read bounded.users bounded.default event.sender
    obtain rfl := Except.ok.inj (sender.symm.trans read)
    exact (not_below kept).trans (greatest.2 ⟨event.sender, counted, read⟩)
  obtain ⟨user, ordinary, read⟩ := newGreatest.1
  rw [user_power_level_read bounded.newUsers bounded.newDefault] at read
  obtain rfl := UserPowerLevel.int.inj (Except.ok.inj read)
  cases found : levelAt newListed user with
  | some level =>
    rcases bounded.listedBounded user level found with kept | within
    · apply greatest.2
      refine ⟨user, ordinary, ?_⟩
      rw [user_power_level_read bounded.users bounded.default, kept]
      rfl
    · exact reached level within
  | none =>
    rcases bounded.defaultBounded with same | within
    · exact same ▸ greatest.2 (default_held bounded.users bounded.default)
    · exact reached _ within

end

def levelsEvent (eventId sender : String) (users : List (String × Int)) : Pdu ReadContent :=
  readEvent eventId powerLevelsType sender "" { maps := [("users", users)] }

theorem promotion_bounded :
    (∃ newTop top, IsGreatest (heldLevels (levelsEvent "$new" "@b:x" [("@a:x", 100), ("@b:x", 50), ("@c:x", 50)])
        v11Rules ["@a:x"]) newTop ∧
      IsGreatest (heldLevels (levelsEvent "$old" "@a:x" [("@a:x", 100), ("@b:x", 50)]) v11Rules ["@a:x"]) top ∧ newTop ≤ top) ∧
    ∃ newTop top, IsGreatest (heldLevels (levelsEvent "$new" "@a:x" [("@a:x", 100), ("@b:x", 100)]) v11Rules []) newTop ∧
      IsGreatest (heldLevels (levelsEvent "$old" "@a:x" [("@a:x", 100)]) v11Rules []) top ∧ newTop ≤ top := by
  have moderator : checkRoomPowerLevels (levelsEvent "$new" "@b:x" [("@a:x", 100), ("@b:x", 50), ("@c:x", 50)])
      (some (levelsEvent "$old" "@a:x" [("@a:x", 100), ("@b:x", 50)])) v11Rules (.int 50) ["@a:x"] = .ok () := by decide +kernel
  have creator : checkRoomPowerLevels (levelsEvent "$new" "@a:x" [("@a:x", 100), ("@b:x", 100)])
      (some (levelsEvent "$old" "@a:x" [("@a:x", 100)])) v11Rules (.int 100) ["@a:x"] = .ok () := by decide +kernel
  exact ⟨top_power_level_not_raised (.int 50) (by decide +kernel) (by simp [Privileged, v11Rules]) moderator,
    top_power_level_not_raised (.int 100) (by decide +kernel) (by simp [Privileged, v11Rules]) creator⟩

-- A creator promotes another user to a level that no user but the creators had: to their
-- own level where they are a user like others, to any level where they are privileged.
theorem creator_raises_others :
    (checkRoomPowerLevels (levelsEvent "$new" "@a:x" [("@a:x", 100), ("@b:x", 100)])
        (some (levelsEvent "$old" "@a:x" [("@a:x", 100)])) v11Rules (.int 100) ["@a:x"] = .ok () ∧
      RoomPowerLevelsEvent.userPowerLevel (levelsEvent "$new" "@a:x" [("@a:x", 100), ("@b:x", 100)]) "@b:x" v11Rules = .ok (.int 100) ∧
      ∀ user, user ∉ ["@a:x"] → RoomPowerLevelsEvent.userPowerLevel (levelsEvent "$old" "@a:x" [("@a:x", 100)]) user v11Rules = .ok (.int 0)) ∧
    (checkRoomPowerLevels (levelsEvent "$new" "@a:x" [("@b:x", 1000)])
    (some (levelsEvent "$old" "@a:x" [])) v12Rules .infinite ["@a:x"] = .ok () ∧
      userPowerLevel (some (levelsEvent "$old" "@a:x" [])) "@a:x" ["@a:x"] v12Rules = .ok .infinite ∧
      RoomPowerLevelsEvent.userPowerLevel (levelsEvent "$new" "@a:x" [("@b:x", 1000)]) "@b:x" v12Rules = .ok (.int 1000) ∧
      ∀ user, RoomPowerLevelsEvent.userPowerLevel (levelsEvent "$old" "@a:x" []) user v12Rules = .ok (.int 0)) := by
  refine ⟨⟨by decide +kernel, by decide +kernel, fun user other => ?_⟩, by decide +kernel, by decide +kernel, by decide +kernel, fun user => ?_⟩
  · have listed : RoomPowerLevelsEvent.users (levelsEvent "$old" "@a:x" [("@a:x", 100)]) v11Rules = .ok (some [("@a:x", 100)]) := by rfl
    have fallback : RoomPowerLevelsEvent.getAsInt (levelsEvent "$old" "@a:x" [("@a:x", 100)]) .usersDefault v11Rules = .ok none := by rfl
    have different : (user == "@a:x") = false := by simpa using other
    rw [user_power_level_read listed fallback]
    simp [levelAt, lookup_cons, different]
  · have listed : RoomPowerLevelsEvent.users (levelsEvent "$old" "@a:x" []) v12Rules = .ok (some []) := by rfl
    have fallback : RoomPowerLevelsEvent.getAsInt (levelsEvent "$old" "@a:x" []) .usersDefault v12Rules = .ok none := by rfl
    exact user_power_level_read listed fallback user

end GaussMatrix.Rooms
