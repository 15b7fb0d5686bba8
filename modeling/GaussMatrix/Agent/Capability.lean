import GaussMatrix.Agent.RateLimit
import GaussMatrix.Library.Diffs
import GaussMatrix.Library.Json

namespace GaussMatrix.Agent.Capability

open Collections Diffs Json List Option Std ExtTreeMap

inductive Action where
  | auto
  | review
  | forbidden
deriving DecidableEq

def Action.label : Action → String
  | .auto => "auto"
  | .review => "review"
  | .forbidden => "forbidden"

def Action.fromLabel (label : String) : Option Action :=
  if label = "auto" then some .auto
  else if label = "review" then some .review
  else if label = "forbidden" then some .forbidden
  else none

inductive DenyReason where
  | roomNotInScope
  | toolNotGranted
  | toolForbidden
  | rateLimited
deriving DecidableEq

inductive Decision where
  | execute
  | requiresApproval
  | denied (reason : DenyReason)
deriving DecidableEq

def Action.outcome : Action → Decision
  | .auto => .execute
  | .review => .requiresApproval
  | .forbidden => .denied .toolForbidden

structure CapabilityGrant where
  permittedTools : BTreeSet String
  accessibleRooms : BTreeSet String
  toolActions : BTreeMap String Action
  rateLimits : BTreeMap String RateLimit
  defaultAction : Action
  version : UInt64

def CapabilityGrant.new : CapabilityGrant := ⟨∅, ∅, ∅, ∅, .review, 0⟩

namespace CapabilityGrant

section

variable (grant : CapabilityGrant)

def actionOf (tool : String) : Action := grant.toolActions[tool]?.getD grant.defaultAction

def mediate (tool room : String) : Decision :=
  if room ∉ grant.accessibleRooms then .denied .roomNotInScope
  else if tool ∉ grant.permittedTools then .denied .toolNotGranted
  else (grant.actionOf tool).outcome

def rooms : List String := grant.accessibleRooms.toList

def tools : List (String × Action) := grant.permittedTools.toList.map fun tool => (tool, grant.actionOf tool)

def toContent : Value := .object [ ("rooms", .array (grant.rooms.map Value.string)),
    ("tools", .object (grant.tools.map fun tool => (tool.1, .string tool.2.label))),
    ("rate_limits", .object (grant.rateLimits.toList.map fun limit =>
      (limit.1, .object [("max", .number (.posInt limit.2.max.toUInt64)), ("window_secs", .number (.posInt limit.2.windowSecs))]))),
    ("default_action", .string grant.defaultAction.label),
    ("version", .number (.posInt grant.version))]

def addRoom (room : String) : CapabilityGrant := { grant with accessibleRooms := grant.accessibleRooms.insert room }

def addTool (entry : String × Value) : CapabilityGrant :=
  let action := (entry.2.asStr.bind Action.fromLabel).getD grant.defaultAction
  { grant with permittedTools := grant.permittedTools.insert entry.1, toolActions := grant.toolActions.insert entry.1 action }

def addRateLimit (entry : String × Value) : CapabilityGrant :=
  match (entry.2.get "max").bind Value.asU64 with
  | none => grant
  | some max =>
    if max.toNat < 2 ^ 32 then
      let windowSecs := ((entry.2.get "window_secs").bind Value.asU64).getD 0
      { grant with rateLimits := grant.rateLimits.insert entry.1 ⟨max.toUInt32, windowSecs⟩ }
    else grant

end

def fromContent (content : Value) : CapabilityGrant :=
  let version := ((content.get "version").bind Value.asU64).getD 0
  let defaultAction := (((content.get "default_action").bind Value.asStr).bind Action.fromLabel).getD .review
  let rooms := (((content.get "rooms").bind Value.asArray).getD []).filterMap Value.asStr
  let tools := (((content.get "tools").bind Value.asObject).getD ∅).toList
  let limits := (((content.get "rate_limits").bind Value.asObject).getD ∅).toList
  limits.foldl addRateLimit (tools.foldl addTool (rooms.foldl addRoom { new with version, defaultAction }))

end CapabilityGrant

def toolsListResult (grant : CapabilityGrant) : Value :=
  .object [("tools", .array ((grant.tools.filter fun tool => tool.2 ≠ .forbidden).map fun tool =>
    .object [("name", .string tool.1), ("annotations", .object [("action", .string tool.2.label)])]))]

def resourcesListResult (grant : CapabilityGrant) : Value :=
  .object [("resources", .array (grant.rooms.map fun room =>
    .object [("uri", .string ("matrix://room/" ++ room)), ("name", .string room)]))]

def handleMcp (grant : CapabilityGrant) (request : Value) : Option Value := do
  let method ← (request.get "method").bind Value.asStr
  let result ←
    if method = "tools/list" then some (toolsListResult grant)
    else if method = "resources/list" then some (resourcesListResult grant)
    else none
  return .object [("jsonrpc", .string "2.0"), ("id", (request.get "id").getD .null), ("result", result)]

def listedTools (response : Value) : List String :=
  ((((response.get "result").bind fun result => result.get "tools").bind Value.asArray).getD []).filterMap fun tool =>
    (tool.get "name").bind Value.asStr

variable {value : Value}

section

def ListsRoom (content : Value) (room : String) : Prop :=
  ∃ rooms, content.get "rooms" = some (.array rooms) ∧ .string room ∈ rooms

def Unrecognised (value : Value) : Prop := ∀ action : Action, value ≠ .string action.label

def HasDefault (content : Value) (action : Action) : Prop :=
  content.get "default_action" = some (.string action.label) ∨
    (action = .review ∧ ∀ value, content.get "default_action" = some value → Unrecognised value)

def HasTool (content : Value) (tool : String) (action : Action) : Prop :=
  ∃ fields value, content.get "tools" = some (.object fields) ∧ (extend ∅ fields)[tool]? = some value ∧
    (value = .string action.label ∨ (Unrecognised value ∧ HasDefault content action))

theorem from_label_iff {label : String} {action : Action} :
    Action.fromLabel label = some action ↔ label = action.label := by
  constructor
  · intro read
    rw [Action.fromLabel] at read
    split_ifs at read with auto review forbidden
    · cases read
      exact auto
    · cases read
      exact review
    · cases read
      exact forbidden
  · intro same
    rw [same]
    cases action <;> rfl

theorem action_read_iff {fallback action : Action} :
    (value.asStr.bind Action.fromLabel).getD fallback = action ↔ value = .string action.label ∨
    (Unrecognised value ∧ fallback = action) := by
  cases read : value.asStr.bind Action.fromLabel with
  | none =>
    have unrecognised : Unrecognised value := by
      intro other same
      rw [same, Value.asStr, bind_some, from_label_iff.mpr rfl] at read
      cases read
    rw [getD_none]
    exact ⟨fun same => .inr ⟨unrecognised, same⟩, fun either =>
      either.elim (fun same => absurd same (unrecognised action)) fun both => both.2⟩
  | some found =>
    obtain ⟨text, isText, isLabel⟩ := bind_eq_some_iff.mp read
    have same : value = .string found.label := by
      rw [(Value.as_str_iff value).mp isText, from_label_iff.mp isLabel]
    rw [getD_some, same]
    constructor
    · intro equal
      rw [equal]
      exact .inl rfl
    · intro either
      rcases either with equal | other
      · have labels : Action.fromLabel found.label = some action := from_label_iff.mpr (Value.string.inj equal)
        rw [from_label_iff.mpr rfl] at labels
        exact some.inj labels
      · exact absurd rfl (other.1 found)

namespace CapabilityGrant

theorem add_rooms (rooms : List String) (grant : CapabilityGrant) :
    rooms.foldl addRoom grant =
    { grant with accessibleRooms := rooms.foldl (fun set => set.insert) grant.accessibleRooms } := by
  induction rooms generalizing grant with
  | nil => rfl
  | cons room rest ih => exact ih (grant.addRoom room)

variable (content : Value) (entries : List (String × Value)) (grant : CapabilityGrant) (tool : String) (action : Action)

theorem add_tools : entries.foldl addTool grant = { grant with
      permittedTools := (entries.map Prod.fst).foldl (fun set => set.insert) grant.permittedTools
      toolActions := extend grant.toolActions (entries.map fun entry => (entry.1, (entry.2.asStr.bind Action.fromLabel).getD grant.defaultAction)) } := by
  induction entries generalizing grant with
  | nil => rfl
  | cons entry rest ih => exact ih (grant.addTool entry)

theorem add_rate_limit_others {entry : String × Value} :
    ∃ limits, grant.addRateLimit entry = { grant with rateLimits := limits } := by
  rw [addRateLimit]
  split
  · exact ⟨_, rfl⟩
  · split
    · exact ⟨_, rfl⟩
    · exact ⟨_, rfl⟩

theorem add_rate_limits : ∃ limits, entries.foldl addRateLimit grant = { grant with rateLimits := limits } := by
  induction entries generalizing grant with
  | nil => exact ⟨_, rfl⟩
  | cons entry rest ih =>
    obtain ⟨first, added⟩ := add_rate_limit_others grant
    obtain ⟨limits, folded⟩ := ih { grant with rateLimits := first }
    exact ⟨limits, by rw [foldl_cons, added, folded]⟩

theorem extend_values {V W : Type} (map : BTreeMap String V) (value : V → W) :
    (extend ∅ (map.toList.map fun entry => (entry.1, value entry.2)))[tool]? = map[tool]?.map value := by
  cases read : map[tool]? with
  | none =>
    rw [extend_outside, ExtTreeMap.getElem?_empty, map_none]
    intro row member same
    obtain ⟨entry, listed, rfl⟩ := List.mem_map.mp member
    rw [← same, mem_toList_iff_getElem?_eq_some.mp listed] at read
    cases read
  | some found =>
    rw [extend_consistent ∅ _ (fun key => map[key]?.map value) ?_ ?_, read]
    · intro row member
      obtain ⟨entry, listed, rfl⟩ := List.mem_map.mp member
      rw [mem_toList_iff_getElem?_eq_some.mp listed, map_some]
    · exact ⟨_, mem_map_of_mem (mem_toList_iff_getElem?_eq_some.mpr read), rfl⟩

theorem from_content_fields : ∃ limits version defaultAction,
    defaultAction = (((content.get "default_action").bind Value.asStr).bind Action.fromLabel).getD .review ∧
    fromContent content = ⟨
        ((((content.get "tools").bind Value.asObject).getD ∅).toList.map Prod.fst).foldl (fun set => set.insert) ∅,
        ((((content.get "rooms").bind Value.asArray).getD []).filterMap Value.asStr).foldl (fun set => set.insert) ∅,
        extend ∅ ((((content.get "tools").bind Value.asObject).getD ∅).toList.map fun entry =>
          (entry.1, (entry.2.asStr.bind Action.fromLabel).getD defaultAction)),
        limits, defaultAction, version⟩ := by
  rw [fromContent]
  rw [add_rooms, add_tools]
  obtain ⟨limits, folded⟩ := add_rate_limits (((content.get "rate_limits").bind Value.asObject).getD ∅).toList _
  exact ⟨limits, _, _, rfl, folded⟩

theorem has_default_iff : HasDefault content action ↔
    (((content.get "default_action").bind Value.asStr).bind Action.fromLabel).getD .review = action := by
  rw [HasDefault]
  cases content.get "default_action" with
  | none => simp [eq_comm]
  | some value =>
    rw [bind_some, action_read_iff]
    constructor
    · intro either
      rcases either with same | other
      · exact .inl (some.inj same)
      · exact .inr ⟨other.2 value rfl, other.1.symm⟩
    · intro either
      rcases either with same | other
      · exact .inl (congrArg some same)
      · refine .inr ⟨other.2.symm, fun another found => ?_⟩
        cases found
        exact other.1

theorem accessible_iff (room : String) : room ∈ (fromContent content).accessibleRooms ↔ ListsRoom content room := by
  obtain ⟨_, _, _, _, parsed⟩ := from_content_fields content
  rw [parsed, insert_all_member, ListsRoom]
  cases content.get "rooms" with
  | none => simp
  | some value =>
    cases items : value.asArray with
    | none =>
      have notArray : ∀ rooms, value ≠ .array rooms := by
        intro rooms same
        rw [same] at items
        cases items
      simp [items, notArray]
    | some rooms =>
      rw [(Value.as_array_iff value).mp items]
      simp [Value.asArray, Value.as_str_iff]

theorem tools_read_iff : (((content.get "tools").bind Value.asObject).getD ∅)[tool]? = some value ↔
      ∃ fields, content.get "tools" = some (.object fields) ∧ (extend ∅ fields)[tool]? = some value := by
  cases content.get "tools" with
  | none => simp
  | some found =>
    cases map : found.asObject with
    | none =>
      have notObject : ∀ fields, found ≠ .object fields := by
        intro fields same
        rw [same] at map
        cases map
      simp [map, notObject]
    | some fields =>
      obtain ⟨rows, rfl, rfl⟩ := (Value.as_object_iff found fields).mp map
      simp [Value.asObject]

theorem permitted_iff : tool ∈ (fromContent content).permittedTools ↔
    ∃ value, (((content.get "tools").bind Value.asObject).getD ∅)[tool]? = some value := by
  obtain ⟨_, _, _, _, parsed⟩ := from_content_fields content
  rw [parsed, insert_all_member, or_iff_right ExtTreeSet.not_mem_empty, List.mem_map]
  constructor
  · intro listed
    obtain ⟨entry, member, rfl⟩ := listed
    exact ⟨entry.2, mem_toList_iff_getElem?_eq_some.mp member⟩
  · intro read
    obtain ⟨value, found⟩ := read
    exact ⟨(tool, value), mem_toList_iff_getElem?_eq_some.mpr found, rfl⟩

theorem action_of_read {content : Value} {tool : String}
    (read : (((content.get "tools").bind Value.asObject).getD ∅)[tool]? = some value) :
    (fromContent content).actionOf tool = (value.asStr.bind Action.fromLabel).getD
    ((((content.get "default_action").bind Value.asStr).bind Action.fromLabel).getD .review) := by
  obtain ⟨_, _, fallback, rfl, parsed⟩ := from_content_fields content
  rw [actionOf, parsed]
  rw [extend_values _ (((content.get "tools").bind Value.asObject).getD ∅) fun found =>
    (found.asStr.bind Action.fromLabel).getD _, read]
  rfl

theorem has_tool_iff : HasTool content tool action ↔ tool ∈ (fromContent content).permittedTools ∧
    (fromContent content).actionOf tool = action := by
  rw [permitted_iff]
  constructor
  · intro has
    obtain ⟨fields, value, isObject, found, labelled⟩ := has
    have read := (tools_read_iff content tool).mpr ⟨fields, isObject, found⟩
    rw [has_default_iff] at labelled
    exact ⟨⟨value, read⟩, (action_of_read read).trans (action_read_iff.mpr labelled)⟩
  · intro both
    obtain ⟨⟨value, read⟩, isAction⟩ := both
    obtain ⟨fields, isObject, found⟩ := (tools_read_iff content tool).mp read
    rw [action_of_read read, action_read_iff, ← has_default_iff] at isAction
    exact ⟨fields, value, isObject, found, isAction⟩

end CapabilityGrant

end

open CapabilityGrant

section

variable (grant : CapabilityGrant) (tool : String)

theorem mediate_iff (room : String) (action : Action) :
    grant.mediate tool room = action.outcome ↔ room ∈ grant.accessibleRooms ∧ tool ∈ grant.permittedTools ∧
    grant.actionOf tool = action := by
  have apart : ∀ other : Action, other.outcome = action.outcome ↔ other = action := by
    intro other
    cases other <;> cases action <;> decide
  have scope : action.outcome ≠ .denied .roomNotInScope ∧ action.outcome ≠ .denied .toolNotGranted := by
    cases action <;> decide
  rw [mediate]
  by_cases inScope : room ∈ grant.accessibleRooms
  · by_cases permitted : tool ∈ grant.permittedTools
    · rw [if_neg (not_not.mpr inScope), if_neg (not_not.mpr permitted), apart]
      simp [inScope, permitted]
    · simp [inScope, permitted, scope.2.symm]
  · simp [inScope, scope.1.symm]

theorem not_denied_iff (room : String) : (∀ reason, grant.mediate tool room ≠ .denied reason) ↔
      room ∈ grant.accessibleRooms ∧ tool ∈ grant.permittedTools ∧ grant.actionOf tool ≠ .forbidden := by
  rw [mediate]
  by_cases inScope : room ∈ grant.accessibleRooms
  · by_cases permitted : tool ∈ grant.permittedTools
    · cases grant.actionOf tool <;> simp [inScope, permitted, Action.outcome]
    · simp [inScope, permitted]
  · simp [inScope]

theorem listed_names {request response : Value} (method : (request.get "method").bind Value.asStr = some "tools/list")
    (handled : handleMcp grant request = some response) :
    listedTools response = (grant.tools.filter fun tool => tool.2 ≠ .forbidden).map Prod.fst := by
  rw [handleMcp, method] at handled
  cases handled
  have name : ∀ tool : String × Action, ((Value.object
    [("name", .string tool.1), ("annotations", .object [("action", .string tool.2.label)])]).get "name").bind
      Value.asStr = some tool.1 := by
    intro tool
    rw [Value.get_object]
    rfl
  have tools :
    (((Value.object [("jsonrpc", .string "2.0"), ("id", (request.get "id").getD .null),
    ("result", toolsListResult grant)]).get "result").bind
      fun result => result.get "tools").bind Value.asArray = (toolsListResult grant |>.get "tools").bind Value.asArray := by
    rw [Value.get_object]
    rfl
  rw [listedTools, tools, toolsListResult, Value.get_object]
  simp [Value.asArray, filterMap_map, name]

theorem tools_listed_iff : tool ∈ (grant.tools.filter fun tool => tool.2 ≠ .forbidden).map Prod.fst ↔
    tool ∈ grant.permittedTools ∧ grant.actionOf tool ≠ .forbidden := by
  rw [List.mem_map, tools]
  constructor
  · intro listed
    obtain ⟨entry, member, rfl⟩ := listed
    obtain ⟨inTools, callable⟩ := mem_filter.mp member
    obtain ⟨name, permitted, rfl⟩ := List.mem_map.mp inTools
    exact ⟨ExtTreeSet.mem_toList.mp permitted, of_decide_eq_true callable⟩
  · intro both
    refine ⟨(tool, grant.actionOf tool), mem_filter.mpr ⟨?_, decide_eq_true both.2⟩, rfl⟩
    exact List.mem_map.mpr ⟨tool, ExtTreeSet.mem_toList.mpr both.1, rfl⟩

theorem tools_distinct : ((grant.tools.filter fun tool => tool.2 ≠ .forbidden).map Prod.fst).Nodup := by
  have names : grant.tools.map Prod.fst = grant.permittedTools.toList := by
    rw [tools, List.map_map]
    exact map_id _
  have distinct : (grant.tools.map Prod.fst).Nodup := by
    rw [names]
    exact set_nodup grant.permittedTools
  exact distinct.sublist (filter_sublist.map Prod.fst)

end

theorem least_privilege (content : Value) (tool room : String) :
    ((fromContent content).mediate tool room = .execute ↔ ListsRoom content room ∧ HasTool content tool .auto) ∧
      ((fromContent content).mediate tool room = .requiresApproval ↔ ListsRoom content room ∧
      HasTool content tool .review) ∧ ∀ request, (request.get "method").bind Value.asStr = some "tools/list" →
      ∃ response, handleMcp (fromContent content) request = some response ∧
        (listedTools response).Nodup ∧ (tool ∈ listedTools response ↔ HasTool content tool .auto ∨ HasTool content tool .review) ∧
        (ListsRoom content room → (tool ∈ listedTools response ↔ ∀ reason, (fromContent content).mediate tool room ≠ .denied reason)) := by
  have outcome : ∀ action : Action, (fromContent content).mediate tool room = action.outcome ↔ ListsRoom content room ∧
    HasTool content tool action := by
    intro action
    rw [mediate_iff, accessible_iff, has_tool_iff]
  refine ⟨outcome .auto, outcome .review, fun request method => ?_⟩
  have handled : ∃ response, handleMcp (fromContent content) request = some response := by
    rw [handleMcp, method]
    exact ⟨_, rfl⟩
  obtain ⟨response, isResponse⟩ := handled
  refine ⟨response, isResponse, ?_⟩
  rw [listed_names _ method isResponse, tools_listed_iff, has_tool_iff, has_tool_iff, not_denied_iff, accessible_iff]
  refine ⟨tools_distinct _, ?_, fun inScope => ?_⟩
  · cases (fromContent content).actionOf tool <;> simp
  · exact (and_iff_right inScope).symm

def roomAGrant : Value := .object [("rooms", .array [.string "!a:x"]), ("tools", .object [("read", .string "auto")])]

theorem other_room_lists_tools : (fromContent roomAGrant).mediate "read" "!b:x" = .denied .roomNotInScope ∧
      (handleMcp (fromContent roomAGrant) (.object [("method", .string "tools/list")])).map listedTools = some ["read"] := by
  decide +kernel

inductive GrantCall where
  | withVersion (version : UInt64)
  | withDefaultAction (action : Action)
  | allowRoom (room : String)
  | allowTool (tool : String) (action : Action)
  | withRateLimit (tool : String) (max : UInt32) (windowSecs : UInt64)

def GrantCall.apply (grant : CapabilityGrant) : GrantCall → CapabilityGrant
  | withVersion version => { grant with version }
  | withDefaultAction action => { grant with defaultAction := action }
  | allowRoom room => grant.addRoom room
  | allowTool tool action => { grant with permittedTools := grant.permittedTools.insert tool, toolActions := grant.toolActions.insert tool action }
  | withRateLimit tool max windowSecs => { grant with rateLimits := grant.rateLimits.insert tool ⟨max, windowSecs⟩ }

-- No tool is permitted without a class of its own, so the default is never written in its place.
def Classified (grant : CapabilityGrant) : Prop :=
  ∀ tool, tool ∈ grant.permittedTools ↔ (grant.toolActions[tool]?).isSome

def limitContent (limit : RateLimit) : Value :=
  .object [("max", .number (.posInt limit.max.toUInt64)), ("window_secs", .number (.posInt limit.windowSecs))]

def limitRead (value : Value) : RateLimit :=
  ⟨(((value.get "max").bind Value.asU64).getD 0).toUInt32, ((value.get "window_secs").bind Value.asU64).getD 0⟩

variable (grant : CapabilityGrant)

theorem limit_fields {limit : RateLimit} : ((limitContent limit).get "max").bind Value.asU64 = some limit.max.toUInt64 ∧
    ((limitContent limit).get "window_secs").bind Value.asU64 = some limit.windowSecs := by
  simp [limitContent, Value.get_object, List.lookup, Value.asU64]

theorem limit_read (limit : RateLimit) : limitRead (limitContent limit) = limit := by
  rw [limitRead, limit_fields.1, limit_fields.2]
  simp

theorem limits_read (entries : List (String × Value))
    (written : ∀ entry ∈ entries, ∃ limit, entry.2 = limitContent limit) : entries.foldl addRateLimit grant =
      { grant with rateLimits := extend grant.rateLimits (entries.map fun entry => (entry.1, limitRead entry.2)) } := by
  induction entries generalizing grant with
  | nil => rfl
  | cons entry rest ih =>
    obtain ⟨limit, isLimit⟩ := written entry mem_cons_self
    have added : grant.addRateLimit entry = { grant with rateLimits := grant.rateLimits.insert entry.1 (limitRead entry.2) } := by
      have small : limit.max.toUInt64.toNat < 2 ^ 32 := limit.max.toNat_lt
      rw [addRateLimit, isLimit, limit_fields.1]
      simp only [small, if_true, limitRead, limit_fields.1, getD_some]
    rw [foldl_cons, added, ih _ fun other member => written other (mem_cons_of_mem entry member)]
    rfl

def toolFields : BTreeMap String Value := extend ∅ (grant.tools.map fun tool => (tool.1, .string tool.2.label))

def limitFields : BTreeMap String Value :=
  extend ∅ (grant.rateLimits.toList.map fun limit => (limit.1, limitContent limit.2))

theorem tool_read (tool : String) : (toolFields grant)[tool]? = if tool ∈ grant.permittedTools then some
    (.string (grant.actionOf tool).label) else none := by
  have rows : ∀ row ∈ grant.tools.map (fun tool => (tool.1, Value.string tool.2.label)), row.1 ∈ grant.permittedTools ∧
      some (Value.string (grant.actionOf row.1).label) = some row.2 := by
    simp [tools]
  rw [toolFields]
  by_cases permitted : tool ∈ grant.permittedTools
  · rw [if_pos permitted]
    refine extend_consistent ∅ _ (fun tool => some (.string (grant.actionOf tool).label)) (fun row member => (rows row member).2) ?_
    exact ⟨(tool, .string (grant.actionOf tool).label), by simpa [tools] using permitted, rfl⟩
  · rw [if_neg permitted, extend_outside, ExtTreeMap.getElem?_empty]
    exact fun row member same => permitted (same ▸ (rows row member).1)

theorem content_read (classified : Classified grant) : fromContent grant.toContent = grant := by
  have version : (grant.toContent.get "version").bind Value.asU64 = some grant.version := by
    simp [toContent, Value.get_object, Value.asU64]
  have fallback : ((grant.toContent.get "default_action").bind Value.asStr).bind Action.fromLabel = some grant.defaultAction := by
    simp [toContent, Value.get_object, List.lookup, Value.asStr, from_label_iff]
  have rooms : (grant.toContent.get "rooms").bind Value.asArray = some (grant.rooms.map Value.string) := by
    simp [toContent, Value.get_object, List.lookup, Value.asArray]
  have tools : (grant.toContent.get "tools").bind Value.asObject = some (toolFields grant) := by
    simp [toContent, Value.get_object, List.lookup, Value.asObject, toolFields]
  have limits : (grant.toContent.get "rate_limits").bind Value.asObject = some (limitFields grant) := by
    simp [toContent, Value.get_object, List.lookup, Value.asObject, limitFields, limitContent]
  rw [fromContent]
  simp only [version, fallback, rooms, tools, limits, getD_some]
  rw [add_rooms, add_tools, limits_read]
  · have permitted : ((toolFields grant).toList.map Prod.fst).foldl (fun set => set.insert) ∅ = grant.permittedTools := by
      refine ExtTreeSet.ext_mem fun tool => ?_
      simp [insert_all_member, mem_iff_isSome_getElem?, tool_read]
    have actions : extend ∅ ((toolFields grant).toList.map fun entry =>
        (entry.1, (entry.2.asStr.bind Action.fromLabel).getD grant.defaultAction)) = grant.toolActions := by
      refine ext_getElem? fun tool => ?_
      rw [extend_values tool _ fun value : Value => (value.asStr.bind Action.fromLabel).getD grant.defaultAction, tool_read]
      have own := classified tool
      cases found : grant.toolActions[tool]? <;> simp_all [actionOf, Value.asStr, from_label_iff.mpr rfl]
    have limited : extend ∅ ((limitFields grant).toList.map fun entry => (entry.1, limitRead entry.2)) = grant.rateLimits := by
      refine ext_getElem? fun tool => ?_
      rw [extend_values, limitFields, extend_values, Option.map_map, (funext limit_read : limitRead ∘ limitContent = id), Option.map_id, id]
    have listed : (grant.rooms.map Value.string).filterMap Value.asStr = grant.rooms := by
      simp [filterMap_map, Function.comp_def, Value.asStr]
    simp only [CapabilityGrant.new, permitted, actions, limited, listed]
    rw [CapabilityGrant.rooms, insert_all_list]
  · intro entry member
    rw [mem_toList_iff_getElem?_eq_some, limitFields, extend_values, map_eq_some_iff] at member
    obtain ⟨limit, _, isLimit⟩ := member
    exact ⟨limit, isLimit.symm⟩

theorem from_content_classified (content : Value) : Classified (fromContent content) := by
  intro tool
  obtain ⟨_, _, fallback, _, parsed⟩ := from_content_fields content
  rw [permitted_iff, parsed]
  rw [extend_values tool _ fun value : Value => (value.asStr.bind Action.fromLabel).getD fallback, isSome_map,
    isSome_iff_exists]

theorem calls_classified (calls : List GrantCall) (classified : Classified grant) :
    Classified (calls.foldl GrantCall.apply grant) := by
  induction calls generalizing grant with
  | nil => exact classified
  | cons call rest ih =>
    refine ih _ fun tool => ?_
    cases call with
    | allowTool added action =>
      have own := classified tool
      by_cases same : added = tool <;> simp_all [GrantCall.apply, ExtTreeMap.getElem?_insert]
    | _ => exact classified tool

theorem grants_round_trip (calls : List GrantCall) (content : Value) :
    fromContent (calls.foldl GrantCall.apply CapabilityGrant.new).toContent =
    calls.foldl GrantCall.apply CapabilityGrant.new ∧
      fromContent (calls.foldl GrantCall.apply (fromContent content)).toContent = calls.foldl GrantCall.apply (fromContent content) ∧
        fromContent (fromContent content).toContent = fromContent content := by
  have parsed := from_content_classified content
  have new : Classified CapabilityGrant.new := fun tool => by simp [CapabilityGrant.new]
  exact ⟨content_read _ (calls_classified _ calls new), content_read _ (calls_classified _ calls parsed),
    content_read _ parsed⟩

end GaussMatrix.Agent.Capability
