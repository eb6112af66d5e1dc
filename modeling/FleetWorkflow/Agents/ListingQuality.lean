import FleetWorkflow.Agents.Replies
import FleetWorkflow.Agents.Tools

/-!
# The listing quality agent

Reference band, vision check, flag: a pipeline without an interrupt, since a flag only puts a
listing in front of a reviewer. In shadow mode the flag goes nowhere. The text of the vision call
and how its reply is read as flags are parameters.
-/

namespace FleetWorkflow.Agents.ListingQuality

open Python Async Core

/-- The name of the agent. -/
def agentName : String := "listing_quality"

/-- A flag of the closed vocabulary, with its explanation. -/
structure Flag where
  code : String
  reason : String

/-- The messages of the vision call, and how its reply is read as flags. -/
structure Checking where
  messages : (image description price currency referenceBand : Json) → Except Exc (List Json)
  parseFlags : String → Except Exc (List Flag)

/-- `REASON_CODES`. -/
def reasonCodes : List String :=
  ["photo_description_mismatch", "blurred_plate_missing", "prohibited_content", "price_anomaly"]

/-- The flag of one item, if its code is in the vocabulary. -/
def flagOf (py : Builtins) (item : Json) : Except Exc (Option Flag) := do
  let code := strip (py.str (← item.getOr "code" (.str "")))
  if code ∈ reasonCodes then
    let reason ← item.getOr "reason" (.str "")
    return some ⟨code, strip (py.str reason)⟩
  else return none

/-- How the reply of the check is read as flags. -/
def parseFlags (py : Builtins) (content : String) : Except Exc (List Flag) := do
  let parsed ← loadsOr ⟨.parseError, "model did not return valid JSON: " ++ py.repr (.str content)⟩
    (stripCodeFence content)
  match ← parsed.getOr "flags" (.arr []) with
  | .arr items => return (← items.mapM (flagOf py)).filterMap id
  | rawFlags => .error ⟨.parseError, "'flags' is not a list: " ++ py.repr rawFlags⟩

/-- The nodes of the graph. -/
inductive Node where
  | killswitchGate
  | fetchBand
  | visionCheck
  | flag
  | finish
deriving DecidableEq

/-- The names of the nodes. -/
def nodeNames : NodeNames Node where
  nodes := [.killswitchGate, .fetchBand, .visionCheck, .flag, .finish]
  name
    | .killswitchGate => "killswitch_gate"
    | .fetchBand => "fetch_band"
    | .visionCheck => "vision_check"
    | .flag => "flag"
    | .finish => "end"
  find_name node := by cases node <;> rfl

section Nodes

variable (checking : Checking) (actor : Actor)

/-- The query of the reference bands; the segment is matched after it. -/
def bandQuery : String := "SELECT segment, band_low, band_high, band_median, currency FROM fixture_price_index"

/-- `value == segment`, where the segment of a request is a text. -/
def isSegment (segment value : Json) : Bool :=
  match segment with
  | .str text => value.eqStr text
  | _ => false

/-- The first band of a segment, or null. -/
def findBand (segment : Json) : List Json → Except Exc Json
  | [] => .ok .null
  | row :: rest => do
    if isSegment segment (← row.getOr "segment" .null) then
      let low ← row.item "band_low"
      let high ← row.item "band_high"
      let median ← row.item "band_median"
      let currency ← row.item "currency"
      return .obj [("low", low), ("high", high), ("median", median), ("currency", currency)]
    else findBand segment rest

/-- Fetch the reference band of the segment. -/
def fetchBand (state : Dict) : Coroutine NodeOutcome := do
  let segment := (Json.get? state "segment").getD (.str "")
  let rows ← await (.tool actor pgRoQuery [("sql", .str bandQuery)])
  let rows ← Prog.ofExcept rows.iterate
  let band ← Prog.ofExcept (findBand segment rows)
  return .wrote [("reference_band", band)]

/-- `check_listing`: one vision call, then the parse. -/
def checkListing (messages : List Json) : Coroutine (List Flag) := do
  let response ← await (.llm actor "utility" messages [("sensitivity", .str "internal")])
  Prog.ofExcept (checking.parseFlags response.content)

/-- The dictionary of a flag. -/
def Flag.asDict (flag : Flag) : Json := .obj [("code", .str flag.code), ("reason", .str flag.reason)]

/-- Check the listing; a malformed reply blocks the run. -/
def visionCheck (state : Dict) : Coroutine NodeOutcome := do
  let image ← Prog.ofExcept (Json.field state "image_base64")
  let description ← Prog.ofExcept (Json.field state "description")
  let price ← Prog.ofExcept (Json.field state "price")
  let currency := (Json.get? state "currency").getD (.str "TRY")
  let referenceBand := (Json.get? state "reference_band").getD .null
  let messages ← Prog.ofExcept (checking.messages image description price currency referenceBand)
  match ← (checkListing checking actor messages).attempt with
  | .ok flags =>
    let verdict := [("flags", .arr (flags.map Flag.asDict)), ("clean", .bool flags.isEmpty)]
    return .wrote [("verdict", .obj verdict), ("flagged", .bool !flags.isEmpty)]
  | .error error =>
    if error.kind = .parseError then
      return .wrote [("blocked_reason", .str ("vision check failed: " ++ error.message))]
    else .raise error

/-- Put the listing in front of a reviewer; the stand-in of the shadow mode reaches no backend. -/
def flag (shadow : Bool) (state : Dict) : Coroutine NodeOutcome := do
  let verdict ← Prog.ofExcept (Json.field state "verdict")
  let flags ← Prog.ofExcept (verdict.item "flags" >>= Json.iterate)
  let listingId ← Prog.ofExcept (Json.field state "listing_id")
  let codes ← Prog.ofExcept (flags.mapM fun flag => flag.item "code")
  let reasons ← Prog.ofExcept (flags.mapM fun flag => flag.item "reason")
  if shadow then return .wrote [("flag_result", .obj [("status", .str "shadow_not_queued")])]
  else
    let result ← await (.tool actor listingsFlag
      [("listing_id", listingId), ("codes", .arr codes), ("reasons", .arr reasons)])
    return .wrote [("flag_result", result)]

/-- `build_listing_quality_graph`. -/
def graph (killswitch : Option KillSwitch) (shadow : Bool) : AgentGraph Node where
  entry := .killswitchGate
  merge := Json.merge
  body node _ state :=
    match node with
    | .killswitchGate => killswitchGate killswitch agentName
    | .fetchBand => fetchBand actor state
    | .visionCheck => visionCheck checking actor state
    | .flag => flag actor shadow state
    | .finish => return .wrote []
  route node state :=
    match node with
    | .killswitchGate => .ok (if Json.flag state "paused" then none else some .fetchBand)
    | .fetchBand => .ok (some .visionCheck)
    | .visionCheck =>
      .ok (some (if !Json.flag state "blocked_reason" && Json.flag state "flagged" then .flag else .finish))
    | .flag => .ok (some .finish)
    | .finish => .ok none

end Nodes

/-! ## What each node calls -/

/-- The tools that each node calls. -/
def nodeTools (shadow : Bool) : Node → List ToolSpec
  | .fetchBand => [pgRoQuery]
  | .flag => if shadow then [] else [listingsFlag]
  | _ => []

/-- The node that calls the model. -/
def callsModel (node : Node) : Bool := node = .visionCheck

/-- Each node makes its own calls only. -/
theorem only_body (checking : Checking) (actor : Actor) (killswitch : Option KillSwitch)
    (shadow : Bool) (node : Node) (resume : Option Json) (state : Dict) :
    ((graph checking actor killswitch shadow).body node resume state).Only
      (NodeCall actor (nodeTools shadow node) (callsModel node)) := by
  cases node with
  | killswitchGate => exact nodeCall_killswitchGate killswitch agentName
  | fetchBand =>
    exact (Prog.only_call ⟨rfl, List.mem_singleton.mpr rfl⟩).bind fun _ => (Prog.only_ofExcept _).bind fun _ =>
      (Prog.only_ofExcept _).bind fun _ => Prog.only_pure _
  | visionCheck =>
    refine (Prog.only_ofExcept _).bind fun _ => (Prog.only_ofExcept _).bind fun _ =>
      (Prog.only_ofExcept _).bind fun _ => (Prog.only_ofExcept _).bind fun _ => Prog.Only.bind ?_ fun flags => ?_
    · exact Prog.Only.attempt ((Prog.only_call ⟨rfl, rfl⟩).bind fun _ => Prog.only_ofExcept _)
    · match flags with
      | .ok flags => trivial
      | .error error =>
        show Prog.Only _ (if error.kind = .parseError then _ else _)
        split <;> trivial
  | flag =>
    refine (Prog.only_ofExcept _).bind fun _ => (Prog.only_ofExcept _).bind fun _ =>
      (Prog.only_ofExcept _).bind fun _ => (Prog.only_ofExcept _).bind fun _ =>
      (Prog.only_ofExcept _).bind fun _ => ?_
    cases shadow with
    | true => trivial
    | false => exact (Prog.only_call ⟨rfl, List.mem_singleton.mpr rfl⟩).bind fun _ => Prog.only_pure _
  | finish => trivial

end FleetWorkflow.Agents.ListingQuality
