import Mathlib
import StationGateway.Gateway.Basic
import StationGateway.Proofs.Database.Dialogue
import StationGateway.Proofs.Recipe.Bound
import StationGateway.Proofs.Recipe.Range
import StationGateway.Proofs.Statement.Placeholders

/-!
# History that callers may ask for

What the database sees of a request for history: the range of time of its statement is the one that
the request names, and if it has a beginning, it has no more days than the plan of the caller
allows. Measurements always have a beginning. The history of metadata may be asked for without one,
and then nothing is counted and the statement reaches back to the first row.
-/

namespace StationGateway

open Database Outcome Statement

/-! ## Requests for history -/

/-- What the path of a request asks for, if it leads to data. -/
def Request.dataPath? (request : Request) : Option DataPath :=
  match Route.ofPath request.uri.path with
  | .data segments => (Route.decode segments).toOption.bind DataPath.ofTexts?
  | _ => none

/-- What requests of the sender are judged by. -/
def Gateway.contextOf (gateway : Gateway) (now : Time.Instant) (request : Request) : DataContext :=
  let caller := Access.Caller.ofRequest request.headers request.uri
  ⟨gateway.settings, gateway.resources, now, caller,
    Quota.Plan.resolve caller.roles caller.subject caller.referer⟩

namespace DataPath

/-- Whether a path leads to the history of measurements or of metadata. -/
def IsHistory : DataPath → Prop
  | history .. => True
  | latest _ _ datatypes window => datatypes = "metadata" ∧ window = "history"
  | _ => False

/-- The column that a range of time is about. -/
def timeColumn : DataPath → String
  | history .. => "me.timestamp"
  | _ => "mh.created_on"

/-- What a path to history and some parameters ask for, and the range of time that they name. -/
inductive Names (params : RequestParams) :
    DataPath → Recipe.Request → Option Time.Instant → Option Time.Instant → Prop
  /-- A range of measurements has both ends in the path. -/
  | measurements {representation types datatypes firstText lastText : String}
      {first last : Time.Instant} (first_read : Time.readMoment firstText = .ok first)
      (last_read : Time.readMoment lastText = .ok last) :
      Names params (history representation types datatypes firstText lastText)
        (.measurements types datatypes (some ⟨first, last⟩)) (some first) (some last)
  /-- A range of metadata has those ends that are parameters. -/
  | metadata {representation types : String} {first last : Option Time.Instant}
      (first_read : Time.readOptionalMoment params.first = .ok first)
      (last_read : Time.readOptionalMoment params.last = .ok last) :
      Names params (latest representation types "metadata" "history")
        (.stationsWithHistory types first last) first last

end DataPath

/-! ## Budgets -/

theorem daysBetween_le_of_checkHistory {allowances : Quota.Allowances} {plan : Quota.Plan}
    {limits : Quota.Limits} (limited : allowances.limits? plan = some limits)
    {now first : Time.Instant} {last : Option Time.Instant}
    (checked : Quota.checkHistory allowances plan now first last = .ok ()) :
    Time.daysBetween first (last.getD now) ≤ limits.days := by
  rw [Quota.checkHistory, limited] at checked
  dsimp only at checked
  split_ifs at checked with exceeds
  exact Int.not_lt.mp exceeds

namespace DataContext

variable {context : DataContext} {options : Recipe.Options} {params : RequestParams}
  {prepared : Recipe.Prepared} {limits : Quota.Limits}

/-- A range of time that is named and, if it has a beginning, is within the budget of a plan. -/
structure Ranges (context : DataContext) (limits : Quota.Limits) (params : RequestParams)
    (path : DataPath) (options : Recipe.Options) (prepared : Recipe.Prepared)
    (first last : Option Time.Instant) : Prop where
  /-- The range is the one that the request names. -/
  prepares : ∃ asked, path.Names params asked first last ∧
    asked.prepare context.resources options = .ok prepared
  /-- The query selects the rows of the range. -/
  begins : prepared.BeginsAt path.timeColumn first
  /-- The calendar dates of the range lie within the budget. An open range ends now. -/
  within : ∀ moment ∈ first, Time.daysBetween moment (last.getD context.now) ≤ limits.days

theorem exists_ranges_of_prepareHistory
    (limited : context.settings.allowances.limits? context.plan = some limits)
    {representation types datatypes firstText lastText : String}
    (done : context.prepareHistory options types datatypes firstText lastText = .ok prepared) :
    ∃ first last, context.Ranges limits params
      (.history representation types datatypes firstText lastText) options prepared first last := by
  obtain ⟨first, first_read, done⟩ := bind_eq_ok_iff.mp done
  obtain ⟨last, last_read, done⟩ := bind_eq_ok_iff.mp done
  obtain ⟨_, checked, compiled⟩ := bind_eq_ok_iff.mp done
  refine ⟨some first, some last, ⟨_, .measurements first_read last_read, compiled⟩,
    Recipe.beginsAt_of_measurements compiled, fun moment is_first => ?_⟩
  obtain rfl := Option.some.inj is_first
  exact daysBetween_le_of_checkHistory limited checked

theorem exists_ranges_of_prepareMetadata
    (limited : context.settings.allowances.limits? context.plan = some limits)
    {representation types : String}
    (done : context.prepareMetadata options params types = .ok prepared) :
    ∃ first last, context.Ranges limits params (.latest representation types "metadata" "history")
      options prepared first last := by
  obtain ⟨first, first_read, done⟩ := bind_eq_ok_iff.mp done
  obtain ⟨last, last_read, done⟩ := bind_eq_ok_iff.mp done
  cases first with
  | none =>
      obtain ⟨_, -, compiled⟩ := bind_eq_ok_iff.mp done
      exact ⟨none, last, ⟨_, .metadata first_read last_read, compiled⟩,
        Recipe.beginsAt_of_stationsWithHistory compiled, fun moment is_first => nomatch is_first⟩
  | some first =>
      obtain ⟨_, checked, compiled⟩ := bind_eq_ok_iff.mp done
      refine ⟨some first, last, ⟨_, .metadata first_read last_read, compiled⟩,
        Recipe.beginsAt_of_stationsWithHistory compiled, fun moment is_first => ?_⟩
      obtain rfl := Option.some.inj is_first
      exact daysBetween_le_of_checkHistory limited checked

/-- Events have no history of metadata: the words are no instants. -/
theorem exists_ranges_of_prepareLatest
    (limited : context.settings.allowances.limits? context.plan = some limits)
    {representation types : String}
    (done : context.prepareLatest options params types "metadata" "history" = .ok prepared) :
    ∃ first last, context.Ranges limits params (.latest representation types "metadata" "history")
      options prepared first last := by
  rw [prepareLatest] at done
  split_ifs at done with is_event is_metadata
  · obtain ⟨first, first_read, -⟩ := bind_eq_ok_iff.mp done
    have no_instant : (Time.readMoment "metadata").isOk = false := by decide +kernel
    rw [first_read] at no_instant
    cases no_instant
  · exact exists_ranges_of_prepareMetadata limited done
  · exact absurd ⟨rfl, rfl⟩ is_metadata

end DataContext

/-! ## What is asked -/

section

variable {holds : Bound → Prop} {context : DataContext}

theorem asksOnly_askPrepared {params : RequestParams} {options : Recipe.Options}
    {prepared : Recipe.Prepared}
    (session : ∀ zone milliseconds, holds (sessionStatement zone milliseconds))
    (fits : ∀ bound, bind prepared.sql prepared.params = .ok bound → holds (rowStatement bound)) :
    (context.askPrepared params options prepared).AsksOnly holds := by
  rw [DataContext.askPrepared]
  split
  · trivial
  · next bound bind_eq =>
    exact (asksOnly_askInSession (session _ _) (fits bound bind_eq)).andThen fun _ => trivial

/-- A request for data asks for what it prepares. -/
theorem asksOnly_askData {uri : Uri} {representation : String}
    {prepare : Recipe.Options → RequestParams → Except GatewayError Recipe.Prepared}
    (session : ∀ zone milliseconds, holds (sessionStatement zone milliseconds))
    (fits : ∀ params options prepared bound, RequestParams.ofUri uri = .ok params →
      prepare options params = .ok prepared → bind prepared.sql prepared.params = .ok bound →
        holds (rowStatement bound)) :
    (context.askData uri representation prepare).AsksOnly holds := by
  rw [DataContext.askData]
  split
  · trivial
  · next params options prepared found =>
    obtain ⟨params, params_eq, found⟩ := bind_eq_ok_iff.mp found
    obtain ⟨options, -, found⟩ := bind_eq_ok_iff.mp found
    obtain ⟨prepared, prepared_eq, found⟩ := bind_eq_ok_iff.mp found
    obtain ⟨rfl, pair_eq⟩ := Prod.mk.inj (Except.ok.inj found)
    obtain ⟨rfl, rfl⟩ := Prod.mk.inj pair_eq
    exact asksOnly_askPrepared session fun bound => fits _ _ _ bound params_eq prepared_eq

theorem asksOnly_answer {request : Request} {path : DataPath}
    (leads : request.dataPath? = some path)
    (asks : (context.ask request.uri path).AsksOnly holds) :
    (Gateway.answer context request).AsksOnly holds := by
  rw [Request.dataPath?] at leads
  split at leads
  · next segments route_eq =>
    obtain ⟨texts, decoded, path_eq⟩ := Option.bind_eq_some_iff.mp leads
    rw [Gateway.answer]
    split_ifs
    · rw [route_eq]
      rw [Gateway.answerRoute, Gateway.answerData, toOption_eq_some_iff.mp decoded]
      dsimp only
      rw [path_eq]
      exact asks.map _
    · trivial
  · cases leads

/-- A request that is counted is answered, unless the sender has used up its requests. -/
theorem asksOnly_answerCounted {gateway : Gateway} {now : Time.Instant} {request : Request}
    (asks : (Gateway.answer (gateway.contextOf now request) request).AsksOnly holds) :
    (gateway.answerCounted now request).2.AsksOnly holds := by
  rw [Gateway.answerCounted]
  dsimp only
  split_ifs
  · exact asks
  · split
    · exact asks.map _
    · refine Dialogue.AsksOnly.map ?_ _
      split_ifs
      · exact asks
      · trivial

theorem asksOnly_respond {gateway : Gateway} {now : Time.Instant} {request : Request}
    (asks : (Gateway.answer (gateway.contextOf now request) request).AsksOnly holds) :
    (gateway.respond now request).2.AsksOnly holds := by
  rw [Gateway.respond]
  dsimp only
  by_cases is_options : request.method = "OPTIONS"
  · rw [if_pos is_options]
    trivial
  · rw [if_neg is_options]
    exact (asksOnly_answerCounted asks).map _

end

/-! ## History that reaches the database -/

/-- What the database sees of a request for history. -/
inductive HistoryStatement (context : DataContext) (limits : Quota.Limits) (uri : Uri)
    (path : DataPath) : Bound → Prop
  /-- The session is set up. -/
  | session (zone : String) (milliseconds : Nat) :
      HistoryStatement context limits uri path (sessionStatement zone milliseconds)
  /-- Rows of a range of time are asked for. The beginning of the range, if it has one, is sent with
  the statement, at least if the projections close their literals. -/
  | rows {params : RequestParams} {options : Recipe.Options} {prepared : Recipe.Prepared}
      {bound : Bound} {first last : Option Time.Instant}
      (given : RequestParams.ofUri uri = .ok params)
      (ranges : context.Ranges limits params path options prepared first last)
      (is_bound : bind prepared.sql prepared.params = .ok bound)
      (sent : context.resources = .bundled →
        (∀ branch ∈ prepared.query.branches, ∀ fragment ∈ branch.fragments, Closed fragment.text) →
          ∀ moment ∈ first, .timestamp moment ∈ bound.binds) :
      HistoryStatement context limits uri path (rowStatement bound)

theorem DataContext.Ranges.mem_binds {context : DataContext} {limits : Quota.Limits}
    {params : RequestParams} {path : DataPath} {options : Recipe.Options}
    {prepared : Recipe.Prepared} {first last : Option Time.Instant}
    (ranges : context.Ranges limits params path options prepared first last) {bound : Bound}
    (is_bound : bind prepared.sql prepared.params = .ok bound)
    (bundled : context.resources = .bundled)
    (closed : ∀ branch ∈ prepared.query.branches, ∀ fragment ∈ branch.fragments,
      Closed fragment.text) {moment : Time.Instant} (is_first : moment ∈ first) :
    .timestamp moment ∈ bound.binds := by
  obtain ⟨asked, -, compiled⟩ := ranges.prepares
  rw [bundled] at compiled
  have value_eq : Order.find? "from" prepared.params = some (.timestamp moment) := by
    rw [ranges.begins.value, Option.mem_def.mp is_first]
    rfl
  have is_param : "from" ∈ prepared.params.map (·.1) :=
    Order.find?_isSome_iff.mp (Option.isSome_iff_exists.mpr ⟨_, value_eq⟩)
  have referenced : "from" ∈ references prepared.sql :=
    ((Recipe.refersToValues_of_prepare compiled).mem_references_sql closed "from").mpr
      (.inr is_param)
  exact subset_binds_of_mem_references is_bound referenced value_eq (List.mem_singleton_self _)

/-- A request for history asks for nothing but the range that it names. -/
theorem asksOnly_ask {context : DataContext} {limits : Quota.Limits}
    (limited : context.settings.allowances.limits? context.plan = some limits) (uri : Uri)
    {path : DataPath} (history : path.IsHistory) :
    (context.ask uri path).AsksOnly (HistoryStatement context limits uri path) := by
  have fits : ∀ params options prepared bound, RequestParams.ofUri uri = .ok params →
      (∃ first last, context.Ranges limits params path options prepared first last) →
        bind prepared.sql prepared.params = .ok bound →
          HistoryStatement context limits uri path (rowStatement bound) := by
    rintro params options prepared bound given ⟨first, last, ranges⟩ is_bound
    exact .rows given ranges is_bound fun bundled closed moment is_first =>
      ranges.mem_binds is_bound bundled closed is_first
  cases path with
  | listing representation => cases history
  | byTypes representation types => cases history
  | byDatatypes representation types datatypes => cases history
  | latest representation types datatypes window =>
      obtain ⟨rfl, rfl⟩ := history
      exact asksOnly_askData .session fun params options prepared bound given done =>
        fits params options prepared bound given
          (DataContext.exists_ranges_of_prepareLatest limited done)
  | history representation types datatypes first last =>
      exact asksOnly_askData .session fun params options prepared bound given done =>
        fits params options prepared bound given
          (DataContext.exists_ranges_of_prepareHistory limited done)

/-- Whatever the database replies, it sees nothing of a request for history but the range of time
that the request names, and a range with a beginning is within the budget of the plan. -/
theorem historyStatement_of_mem_run {gateway : Gateway} {now : Time.Instant} {request : Request}
    {path : DataPath} (leads : request.dataPath? = some path) (history : path.IsHistory)
    {limits : Quota.Limits} (limited : gateway.settings.allowances.limits?
      (gateway.contextOf now request).plan = some limits)
    {replies : List Reply} {statement : Bound}
    (sent : statement ∈ ((gateway.respond now request).2.run replies).1) :
    HistoryStatement (gateway.contextOf now request) limits request.uri path statement :=
  (asksOnly_respond
    (asksOnly_answer leads (asksOnly_ask limited request.uri history))).holds_of_mem_run sent

/-- A guest may ask for thirty days, and sees the metadata of all times by naming no beginning. -/
theorem historyStatement_of_mem_run_unbounded :
    let gateway : Gateway := .start (.forDatabase "") .bundled
    let request : Request :=
      ⟨"GET", ⟨"/flat/ParkingStation/metadata/history", some "select=scode"⟩, [], none⟩
    gateway.settings.allowances.limits? (gateway.contextOf ⟨0⟩ request).plan = some ⟨20, 30⟩ ∧
      ∃ statement ∈ ((gateway.respond ⟨0⟩ request).2.run []).1,
        ∃ (prepared : Recipe.Prepared) (bound : Bound),
          Statement.bind prepared.sql prepared.params = .ok bound ∧
            statement = rowStatement bound ∧ prepared.BeginsAt "mh.created_on" none := by
  intro gateway request
  have leads : request.dataPath? =
      some (.latest "flat" "ParkingStation" "metadata" "history") := by
    decide +kernel
  have limited : gateway.settings.allowances.limits? (gateway.contextOf ⟨0⟩ request).plan =
      some ⟨20, 30⟩ := by
    decide +kernel
  have open_beginning : (RequestParams.ofUri request.uri).toOption.map (·.first) =
      some none := by
    decide +kernel
  have counts : ((gateway.respond ⟨0⟩ request).2.run []).1.map (·.binds.length) = [2, 3] := by
    decide +kernel
  -- The statement that sets up the session has two values.
  have count_in : 3 ∈ ((gateway.respond ⟨0⟩ request).2.run []).1.map (·.binds.length) :=
    counts ▸ by decide
  obtain ⟨statement, sent, count⟩ := List.mem_map.mp count_in
  refine ⟨limited, statement, sent, ?_⟩
  cases historyStatement_of_mem_run leads ⟨rfl, rfl⟩ limited sent with
  | session zone milliseconds => cases count
  | rows given ranges is_bound _ =>
      refine ⟨_, _, is_bound, rfl, ?_⟩
      obtain ⟨asked, names, -⟩ := ranges.prepares
      have begins := ranges.begins
      cases names with
      | metadata first_read _ =>
          simp only [given, Except.toOption, Option.map_some, Option.some.injEq] at open_beginning
          rw [open_beginning] at first_read
          obtain rfl := Except.ok.inj first_read
          exact begins

end StationGateway
