import HexAgent.Json
import HexAgent.Kernel

/-!
The event log of a run. Every event on the bus is written with the next number and counted under
its topic. The payload is handed on as keyword arguments, and the file and the counters are
reached only when nothing raises before.
-/
namespace HexAgent.EventLog
open HexAgent.Values HexAgent.Json HexAgent.Kernel Dicts

/-! ### Writing an event -/

/-- What the encoder does with an instance of another class. -/
def unserializable (o : PyObject) : Except PyError String :=
  .error (.TypeError ("Object of type " ++ o.cls ++ " is not JSON serializable"))

/-- `json.dumps(event, ensure_ascii=False)`. -/
def dumpEvent (event : Fields) : Except PyError String := writeJson dumpText unserializable (.dict event)

/-! ### The logger -/

def _METRICS : List String :=
    ["steps","llm_calls","llm_failures","tool_calls","tool_failures","parse_errors","policy_blocks",
  "finish_gate_blocks","condensed","delegations","delegation_progress","delegation_failures"]

/-- A line of `events.jsonl`, with the event that it holds. -/
structure Line where
  event : Dict String PyVal
  text : String

structure EventLogger where
  run_id : String
  enabled : Bool
  seq : Nat := 0
  metrics : List (String × Nat) := _METRICS.map fun metric => (metric,0)
  lines : List Line := []

section
-- the time when an event takes its number
variable (clock : Nat → String)

/-- The event with a number; a field replaces what the logger says under its name. -/
def eventOf (run_id kind : String) (seq : Nat) (fields : Fields) : Dict String PyVal :=
  (Dict.ofPairs [("sequence",.int seq),("timestamp",.str
    (clock seq)),("run_id",.str run_id),("kind",.str kind)]).update fields

def EventLogger.emit (logger : EventLogger) (kind : String) (fields : Fields) :
    Except PyError (Dict String PyVal) × EventLogger :=
  let seq := logger.seq + 1
  let event := eventOf clock logger.run_id kind seq fields
  if logger.enabled then
    match dumpEvent event.pairs with
    | .ok text => (.ok event,{ logger with seq, lines := logger.lines ++ [⟨event,text ++ "\n"⟩] })
    | .error exc => (.error exc,{ logger with seq })
  else (.ok event,{ logger with seq })

def EventLogger.count (logger : EventLogger) (metric : String) : EventLogger :=
  match get metric logger.metrics with
  | some n => { logger with metrics := put metric (n + 1) logger.metrics }
  | none => logger

/-- A logger for a new run; it writes the first event. -/
def EventLogger.begin (run_id : String) (enabled : Bool) : EventLogger :=
  (EventLogger.emit clock { run_id, enabled } "StateEvent" [("status",.str "run_started")]).2

/-- The tool of an event is a language model. -/
def is_llm (payload : Dict String PyVal) : Bool :=
  match payload.get "tool" with
  | some (.str tool) => decide ("llm.".toList <+: tool.toList)
  | _ => false

/-- The call `emit(kind, topic=topic, **payload)`. -/
def EventLogger.emitted (logger : EventLogger) (kind topic : String) (payload : Dict String PyVal) :
    Except PyError (Dict String PyVal) × EventLogger :=
  if "topic" ∈ payload.keys then (.error (.TypeError "emit() got multiple values for keyword argument 'topic'"),logger)
  else if "self" ∈ payload.keys then (.error (.TypeError "emit() got multiple values for argument 'self'"),logger)
  else if "kind" ∈ payload.keys then (.error (.TypeError "emit() got multiple values for argument 'kind'"),logger)
  else logger.emit clock kind (("topic",.str topic) :: payload.pairs)

/-- The metrics that an event counts. -/
def counted (topic : String) (payload : Dict String PyVal) : List String :=
  if topic = "tool.completed" then "tool_calls" :: if is_llm payload then ["llm_calls"] else []
  else if topic = "tool.failed" then
    "tool_calls" :: "tool_failures" :: if is_llm payload then ["llm_calls","llm_failures"] else []
  else if topic = "graph.step" then ["steps"]
  else if topic = "graph.parse_error" then ["parse_errors"]
  else if topic = "graph.finish_blocked" then ["finish_gate_blocks"]
  else if topic = "delegation.started" then ["delegations"]
  else if topic = "delegation.progress" then ["delegation_progress"]
  else if topic = "delegation.finished" ∧ payload.get "outcome" ≠ some (.str "success") then ["delegation_failures"]
  else []

/-- An event of the bus. -/
structure Posted where
  topic : String
  payload : Dict String PyVal

def sink (logger : EventLogger) (e : Posted) : Except PyError Unit × EventLogger :=
  match logger.emitted clock (if is_llm e.payload then "LLMCallEvent" else "KernelEvent") e.topic e.payload with
  | (.ok _,logger) => (.ok (),(counted e.topic e.payload).foldl EventLogger.count logger)
  | (.error exc,logger) => (.error exc,logger)

/-- The bus hands a copy of the payload to the logger, and drops what it raises. -/
def publish (logger : EventLogger) (e : Posted) : EventLogger := (sink clock logger e).2

/-- The logger of a run after these events. -/
def logged (run_id : String) (enabled : Bool) (published : List Posted) : EventLogger :=
  published.foldl (publish clock) (EventLogger.begin clock run_id enabled)

end

/-! ### What the log is for -/

/-- Each metric, and the events that it counts. -/
def tallies : List (String × (Posted → Bool)) :=
  [("steps",fun e => e.topic = "graph.step"),
    ("llm_calls",fun e => (e.topic = "tool.completed" || e.topic = "tool.failed") && is_llm e.payload),
    ("llm_failures",fun e => e.topic = "tool.failed" && is_llm e.payload),
    ("tool_calls",fun e => e.topic = "tool.completed" || e.topic = "tool.failed"),
    ("tool_failures",fun e => e.topic = "tool.failed"),
    ("parse_errors",fun e => e.topic = "graph.parse_error"),
    ("policy_blocks",fun _ => false),
    ("finish_gate_blocks",fun e => e.topic = "graph.finish_blocked"),
    ("condensed",fun _ => false),
    ("delegations",fun e => e.topic = "delegation.started"),
    ("delegation_progress",fun e => e.topic = "delegation.progress"),
    ("delegation_failures",fun e => e.topic = "delegation.finished" && e.payload.get "outcome" ≠ some (.str "success"))]

/-- Every metric of the logger has its tally. -/
theorem tallies_metrics : tallies.map Prod.fst = _METRICS := rfl

/-- The line holds the event. -/
def Records (e : Posted) (line : Line) : Prop :=
  line.event.get "topic" = some (.str e.topic) ∧ ∀ key v, e.payload.get key = some v → line.event.get key = some v

/-- Every metric is the number of its events, every event has its line, and the lines are numbered from 1. -/
structure Exact (logger : EventLogger) (published : List Posted) : Prop where
  metrics : ∀ tally ∈ tallies, get tally.1 logger.metrics = some (published.countP tally.2)
  recorded : List.Forall₂ Records published (logger.lines.drop 1)
  numbered : logger.lines.map (fun line => line.event.get "sequence") =
    (List.range logger.lines.length).map fun n : Nat => some (.int (n + 1))

/-- What a payload must be to be logged under a number: no key is an argument of the call, everything can be
    written, the number too, and a number that it brings is that one. -/
structure Loggable (n : Nat) (payload : Dict String PyVal) : Prop where
  clear : "topic" ∉ payload.keys ∧ "self" ∉ payload.keys ∧ "kind" ∉ payload.keys
  plain : objectsIn payload.pairs = []
  short : shortFields payload.pairs = true
  sequence : ∀ v, payload.get "sequence" = some v → v = .int n
  number : shortInts (.int n) = true

/-! ### What can be written -/

section
variable (literal : String → String) (other : PyObject → Except PyError String)

/-- The objects of other classes can be written. -/
def Spelled (objects : List PyObject) : Prop := ∀ o ∈ objects, ∃ text, other o = .ok text

theorem spelled_append {first second : List PyObject} :
    Spelled other (first ++ second) ↔ Spelled other first ∧ Spelled other second := List.forall_mem_append

mutual
/-- A value is written when its objects of other classes can be, and no integer of it is too long. -/
theorem writeJson_iff : ∀ v : PyVal,
    (∃ text, writeJson literal other v = .ok text) ↔ Spelled other (PyVal.objects v) ∧ shortInts v = true
  | .null | .bool _ | .float _ | .str _ => by simp [writeJson,PyVal.objects,Spelled,shortInts]
  | .int _ => by rw [writeJson,dumpInt_iff]; simp [PyVal.objects,Spelled,shortInts]
  | .list items | .tuple items => by
    rw [writeJson,PyVal.objects,map_ok_iff,writeItems_iff items,shortInts]
  | .dict fields => by
    rw [writeJson,PyVal.objects,map_ok_iff,writeFields_iff fields,shortInts]
  | .object o => by simp [writeJson,PyVal.objects,Spelled,shortInts]
theorem writeItems_iff : ∀ items : List PyVal,
    (∃ texts, writeItems literal other items = .ok texts) ↔ Spelled other (objectsOf items) ∧ shortItems items = true
  | [] => by simp [writeItems,objectsOf,Spelled,shortItems]
  | item :: rest => by
    rw [writeItems,pair_ok_iff,objectsOf,spelled_append,writeJson_iff item,writeItems_iff rest,shortItems,Bool.and_eq_true]
    tauto
theorem writeFields_iff : ∀ fields : Fields,
    (∃ members, writeFields literal other fields = .ok members) ↔ Spelled other (objectsIn fields) ∧ shortFields fields = true
  | [] => by simp [writeFields,objectsIn,Spelled,shortFields]
  | (_,v) :: rest => by
    rw [writeFields,pair_ok_iff,objectsIn,spelled_append,writeJson_iff v,writeFields_iff rest,shortFields,Bool.and_eq_true]
    tauto
end

end

theorem dumpEvent_iff {event : Fields} : (∃ text, dumpEvent event = .ok text) ↔ objectsIn event = [] ∧
    shortFields event = true := by
  have none : Spelled unserializable (objectsIn event) ↔ objectsIn event = [] := by
    rw [List.eq_nil_iff_forall_not_mem]
    simp [Spelled,unserializable]
  rw [dumpEvent,writeJson_iff,PyVal.objects,none,shortInts]

/-- The value can be written. -/
def Writable (v : PyVal) : Prop := PyVal.objects v = [] ∧ shortInts v = true

/-- Fields are written when each value can be. -/
theorem fields_writable {fields : Fields} :
    objectsIn fields = [] ∧ shortFields fields = true ↔ ∀ field ∈ fields, Writable field.2 := by
  induction fields with
  | nil => simp [objectsIn,shortFields]
  | cons field rest ih =>
    obtain ⟨key,v⟩ := field
    rw [List.forall_mem_cons,← ih,objectsIn,shortFields,List.append_eq_nil_iff,Bool.and_eq_true,Writable]
    tauto

/-! ### One event -/

section
variable {clock : Nat → String} {run_id kind topic : String} {seq : Nat} {payload : Dict String PyVal}

/-- No key of the payload is an argument of the call. -/
def Clear (payload : Dict String PyVal) : Prop := "topic" ∉ payload.keys ∧ "self" ∉ payload.keys ∧ "kind" ∉ payload.keys

instance (payload : Dict String PyVal) : Decidable (Clear payload) := inferInstanceAs (Decidable (_ ∧ _ ∧ _))

theorem event_get (clear : Clear payload) (key : String) :
    (eventOf clock run_id kind seq (("topic",.str topic) :: payload.pairs)).get key =
      (if key = "topic" then some (.str topic) else payload.get key).or
        ((Dict.ofPairs [("sequence",.int seq),("timestamp",.str
          (clock seq)),("run_id",.str run_id),("kind",.str kind)]).get key) := by
  have distinct : ((("topic",PyVal.str topic) :: payload.pairs).map Prod.fst).Nodup :=
    List.nodup_cons.mpr ⟨clear.1,payload.nodup⟩
  unfold eventOf
  rw [Dict.get_update distinct]
  by_cases here : key = "topic"
  · simp [Dicts.get,here]
  · simp [Dicts.get,here,Ne.symm here,Dict.get]

/-- A payload is written with its topic, and whatever it brings replaces what the logger says. -/
theorem event_records (clear : Clear payload) (text : String) :
    Records ⟨topic,payload⟩ ⟨eventOf clock run_id kind seq (("topic",.str topic) :: payload.pairs),text⟩ := by
  refine ⟨by rw [event_get clear,if_pos rfl,Option.some_or],fun key v given => ?_⟩
  have other : key ≠ "topic" := fun same => clear.1 (same ▸ Dict.mem_keys_of_get given)
  rw [event_get clear,if_neg other,given,Option.some_or]

theorem event_sequence (clear : Clear payload) :
    (eventOf clock run_id kind seq (("topic",.str topic) :: payload.pairs)).get "sequence" =
      some ((payload.get "sequence").getD (.int seq)) := by
  rw [event_get clear,if_neg (by decide)]
  rcases payload.get "sequence" with _ | v
  · rfl
  · rfl

/-- A payload is loggable when its event can be written, with its number in it. -/
theorem loggable_iff : Loggable seq payload ↔ Clear payload ∧
    (∃ text, dumpEvent (eventOf clock run_id kind seq (("topic",.str topic) :: payload.pairs)).pairs = .ok text) ∧
    (eventOf clock run_id kind seq (("topic",.str topic) :: payload.pairs)).get "sequence" = some (.int seq) := by
  rw [dumpEvent_iff,fields_writable]
  constructor
  · intro loggable
    have clear : Clear payload := loggable.clear
    refine ⟨clear,?_,?_⟩
    · rintro ⟨key,v⟩ member
      have there := (get_eq_some_iff (Dict.nodup _)).mpr member
      have found := (event_get clear key).symm.trans there
      by_cases here : key = "topic"
      · rw [if_pos here] at found
        cases found
        exact ⟨rfl,rfl⟩
      · rw [if_neg here] at found
        rcases given : payload.get key with _ | u
        · rw [given,Option.none_or] at found
          have base : Dicts.get key [("sequence",PyVal.int seq),("timestamp",.str (clock seq)),("run_id",.str
            run_id),("kind",.str kind)] =
            some v := found
          simp only [Dicts.get] at base
          split_ifs at base
          · cases base
            exact ⟨rfl,loggable.number⟩
          · cases base
            exact ⟨rfl,rfl⟩
          · cases base
            exact ⟨rfl,rfl⟩
          · cases base
            exact ⟨rfl,rfl⟩
        · rw [given,Option.some_or] at found
          cases found
          exact fields_writable.mp ⟨loggable.plain,loggable.short⟩ (key,v) ((get_eq_some_iff payload.nodup).mp given)
    · rw [event_sequence clear]
      rcases given : payload.get "sequence" with _ | v
      · rfl
      · rw [loggable.sequence v given]
        rfl
  · rintro ⟨clear,writable,numbered⟩
    have within : ∀ field ∈ payload.pairs, Writable field.2 := by
      rintro ⟨key,v⟩ member
      have there := (@event_records clock run_id kind topic seq payload clear "").2 key v
        ((get_eq_some_iff payload.nodup).mpr member)
      exact writable (key,v) ((get_eq_some_iff (Dict.nodup _)).mp there)
    obtain ⟨plain,short⟩ := fields_writable.mpr within
    refine ⟨clear,plain,short,fun v given => ?_,(writable _ ((get_eq_some_iff (Dict.nodup _)).mp numbered)).2⟩
    rw [event_sequence clear,given] at numbered
    exact Option.some.inj numbered

end

/-! ### Counters -/

section
variable {logger : EventLogger}

theorem count_get (metric m : String) :
    get m (logger.count metric).metrics = (get m logger.metrics).map fun n => if m = metric then n + 1 else n := by
  unfold EventLogger.count
  rcases found : get metric logger.metrics with _ | n
  · by_cases same : m = metric
    · rw [same,found]
      rfl
    · simp [same]
  · show get m (put metric (n + 1) logger.metrics) = _
    rw [get_put]
    by_cases same : m = metric
    · rw [if_pos same,same,found]
      simp
    · simp [same]

/-- Counting changes nothing but the metrics. -/
theorem count_frame (metric : String) : logger.count metric = { logger with metrics := (logger.count metric).metrics }
    := by
  unfold EventLogger.count
  split <;> rfl

theorem counting_frame (names : List String) :
    names.foldl EventLogger.count logger = { logger with metrics :=
      (names.foldl EventLogger.count logger).metrics } := by
  induction names generalizing logger with
  | nil => rfl
  | cons name rest ih =>
    rw [List.foldl_cons,ih,count_frame]

theorem counting_get (names : List String) (m : String) :
    get m (names.foldl EventLogger.count logger).metrics = (get m logger.metrics).map fun n => n + names.count m := by
  induction names generalizing logger with
  | nil => simp
  | cons name rest ih =>
    rw [List.foldl_cons,ih,count_get,Option.map_map,List.count_cons]
    refine congrArg (fun f => Option.map f _) (funext fun n => ?_)
    by_cases same : m = name
    · simp [same]
      omega
    · simp [same,Ne.symm same]

/-- Each event is counted once under each of its metrics, and under no other. -/
theorem counted_count (e : Posted) : ∀ tally ∈ tallies,
    (counted e.topic e.payload).count tally.1 = if tally.2 e = true then 1 else 0 := by
  obtain ⟨topic,payload⟩ := e
  unfold counted
  by_cases completed : topic = "tool.completed"
  · subst completed
    cases llm : is_llm payload <;> simp [tallies,llm]
  rw [if_neg completed]
  by_cases failed : topic = "tool.failed"
  · subst failed
    cases llm : is_llm payload <;> simp [tallies,llm]
  rw [if_neg failed]
  by_cases step : topic = "graph.step"
  · subst step
    simp [tallies]
  rw [if_neg step]
  by_cases parse : topic = "graph.parse_error"
  · subst parse
    simp [tallies]
  rw [if_neg parse]
  by_cases blocked : topic = "graph.finish_blocked"
  · subst blocked
    simp [tallies]
  rw [if_neg blocked]
  by_cases started : topic = "delegation.started"
  · subst started
    simp [tallies]
  rw [if_neg started]
  by_cases progress : topic = "delegation.progress"
  · subst progress
    simp [tallies]
  rw [if_neg progress]
  by_cases unsuccessful : topic = "delegation.finished" ∧ payload.get "outcome" ≠ some (.str "success")
  · obtain ⟨rfl,outcome⟩ := unsuccessful
    simp [tallies,outcome]
  · rw [if_neg unsuccessful]
    simp [tallies,completed,failed,step,parse,blocked,started,progress]
    simpa using unsuccessful

end

/-! ### Runs -/

section
variable {clock : Nat → String} {run_id : String} {logger : EventLogger} {e : Posted} {published : List Posted}

/-- The event that is written for a posted one. -/
def lineEvent (clock : Nat → String) (run_id : String) (seq : Nat) (e : Posted) : Dict String PyVal :=
  eventOf clock run_id (if is_llm e.payload then "LLMCallEvent" else "KernelEvent") seq
    (("topic",.str e.topic) :: e.payload.pairs)

/-- The event reaches the file. -/
def Written (clock : Nat → String) (run_id : String) (seq : Nat) (e : Posted) : Prop :=
  Clear e.payload ∧ ∃ text, dumpEvent (lineEvent clock run_id seq e).pairs = .ok text

theorem emitted_clear (clear : Clear e.payload) (kind : String) :
    logger.emitted clock kind e.topic e.payload = logger.emit clock kind
      (("topic",.str e.topic) :: e.payload.pairs) := by
  unfold EventLogger.emitted
  rw [if_neg clear.1,if_neg clear.2.1,if_neg clear.2.2]

theorem emitted_unclear (unclear : ¬ Clear e.payload) (kind : String) :
    ∃ exc, logger.emitted clock kind e.topic e.payload = (.error exc,logger) := by
  unfold EventLogger.emitted
  split_ifs with topic self kind
  · exact ⟨_,rfl⟩
  · exact ⟨_,rfl⟩
  · exact ⟨_,rfl⟩
  · exact absurd ⟨topic,self,kind⟩ unclear

/-- A written event has its line and is counted. -/
theorem publish_written (enabled : logger.enabled = true) (written : Written clock logger.run_id (logger.seq + 1) e) :
    ∃ text metrics, publish clock logger e = { logger with
      seq := logger.seq + 1, metrics, lines := logger.lines ++ [⟨lineEvent clock logger.run_id (logger.seq + 1)
        e,text⟩] } ∧
      ∀ m, get m metrics = (get m logger.metrics).map fun n => n + (counted e.topic e.payload).count m := by
  obtain ⟨clear,text,dumped⟩ := written
  unfold publish sink
  rw [emitted_clear clear]
  unfold EventLogger.emit
  unfold lineEvent at dumped
  rw [if_pos enabled]
  simp only [dumped]
  rw [counting_frame]
  exact ⟨_,_,rfl,counting_get _⟩

/-- Any other event leaves the file as it is. -/
theorem publish_unwritten (enabled : logger.enabled = true)
    (unwritten : ¬ Written clock logger.run_id (logger.seq + 1) e) :
    ∃ seq, publish clock logger e = { logger with seq } := by
  unfold publish sink
  by_cases clear : Clear e.payload
  · rw [emitted_clear clear]
    unfold EventLogger.emit
    rw [if_pos enabled]
    rcases dumped : dumpEvent (lineEvent clock logger.run_id (logger.seq + 1) e).pairs with exc | text
    · unfold lineEvent at dumped
      simp only [dumped]
      exact ⟨_,rfl⟩
    · exact absurd ⟨clear,text,dumped⟩ unwritten
  · obtain ⟨exc,raised⟩ := @emitted_unclear clock logger e clear (if is_llm e.payload then "LLMCallEvent" else
      "KernelEvent")
    rw [raised]
    exact ⟨logger.seq,rfl⟩

/-- Without a file nothing is written. -/
theorem publish_disabled (disabled : logger.enabled = false) : (publish clock logger e).lines = logger.lines ∧
    (publish clock logger e).enabled = false := by
  unfold publish sink
  by_cases clear : Clear e.payload
  · rw [emitted_clear clear]
    unfold EventLogger.emit
    rw [if_neg (by rw [disabled]; decide)]
    dsimp only
    rw [counting_frame]
    exact ⟨rfl,disabled⟩
  · obtain ⟨exc,raised⟩ := @emitted_unclear clock logger e clear (if is_llm e.payload then "LLMCallEvent" else
      "KernelEvent")
    rw [raised]
    exact ⟨rfl,disabled⟩

/-- Every event of the run reaches the file; the logger itself wrote the first line. -/
def Whole (clock : Nat → String) (run_id : String) (published : List Posted) : Prop :=
  ∀ i e, published[i]? = some e → Written clock run_id (i + 2) e

/-- The log of a run in which every event reached the file. -/
structure Kept (clock : Nat → String) (run_id : String) (published : List Posted) (logger : EventLogger) : Prop where
  enabled : logger.enabled = true
  run : logger.run_id = run_id
  seq : logger.seq = published.length + 1
  first : ∃ line rest, logger.lines = line :: rest ∧ line.event.get "sequence" = some (.int 1) ∧
    rest.map Line.event = published.mapIdx fun i e => lineEvent clock run_id (i + 2) e
  metrics : ∀ tally ∈ tallies, get tally.1 logger.metrics = some (published.countP tally.2)

theorem logged_snoc (enabled : Bool) (published : List Posted) (e : Posted) :
    logged clock run_id enabled (published ++ [e]) = publish clock (logged clock run_id enabled published) e := by
  unfold logged
  rw [List.foldl_append]
  rfl

/-- The first line tells that the run started. -/
theorem begin_kept : Kept clock run_id [] (EventLogger.begin clock run_id true) := by
  have short : shortInts (.int ((0 + 1 : Nat) : Int)) = true := by
    unfold shortInts intLimit
    exact decide_eq_true (Nat.one_lt_pow (by decide) (by decide))
  have fields : (eventOf clock run_id "StateEvent" (0 + 1) [("status",.str "run_started")]).pairs =
    [("sequence",.int ((0 + 1 : Nat) : Int)),("timestamp",.str (clock (0 + 1))),("run_id",.str run_id),("kind",.str
      "StateEvent"),
      ("status",.str "run_started")] := rfl
  obtain ⟨text,dumped⟩ : ∃ text, dumpEvent (eventOf clock run_id "StateEvent" (0 + 1) [("status",.str
    "run_started")]).pairs = .ok text := by
    rw [dumpEvent_iff,fields]
    exact ⟨rfl,by simp only [shortFields,short]; rfl⟩
  unfold EventLogger.begin EventLogger.emit
  rw [if_pos rfl]
  simp only [dumped]
  refine ⟨rfl,rfl,rfl,⟨_,[],rfl,rfl,rfl⟩,fun tally member => ?_⟩
  have zero : ∀ metric ∈ _METRICS, get metric (_METRICS.map fun metric => (metric,0)) = some 0 := by decide
  exact zero tally.1 (tallies_metrics ▸ List.mem_map_of_mem member)

theorem whole_snoc : Whole clock run_id (published ++ [e]) ↔ Whole clock run_id published ∧
    Written clock run_id (published.length + 2) e := by
  constructor
  · intro whole
    refine ⟨fun i e found => whole i e ?_,whole published.length e (by simp)⟩
    rwa [List.getElem?_append_left (List.getElem?_eq_some_iff.mp found).1]
  · rintro ⟨whole,written⟩ i e' found
    by_cases early : i < published.length
    · rw [List.getElem?_append_left early] at found
      exact whole i e' found
    · rw [List.getElem?_append_right (Nat.le_of_not_lt early),List.getElem?_singleton] at found
      split_ifs at found with last
      cases found
      have same : i = published.length := by omega
      rwa [same]

/-- Every event reached the file, or some line is missing for good. -/
theorem logged_cases (clock : Nat → String) (run_id : String) (published : List Posted) :
    (Whole clock run_id published ∧ Kept clock run_id published (logged clock run_id true published)) ∨
      (¬ Whole clock run_id published ∧ (logged clock run_id true published).enabled = true ∧
        (logged clock run_id true published).lines.length ≤ published.length) := by
  induction published using List.reverseRecOn with
  | nil => exact .inl ⟨fun i e found => absurd found (by simp),begin_kept⟩
  | append_singleton published e ih =>
    rw [logged_snoc,whole_snoc]
    generalize logged clock run_id true published = before at ih ⊢
    rcases ih with ⟨whole,kept⟩ | ⟨missing,enabled,few⟩
    · have seq : before.seq + 1 = published.length + 2 := by rw [kept.seq]
      obtain ⟨line,rest,lines,number,events⟩ := kept.first
      by_cases written : Written clock run_id (published.length + 2) e
      · rw [← seq,← kept.run] at written
        obtain ⟨text,metrics,posted,gets⟩ := publish_written kept.enabled written
        rw [kept.run,seq] at written posted
        refine .inl ⟨⟨whole,written⟩,?_⟩
        rw [posted]
        refine ⟨kept.enabled,rfl,?_,⟨line,rest ++ [⟨lineEvent clock run_id (published.length + 2)
          e,text⟩],?_,number,?_⟩,
          fun tally member => ?_⟩
        · show published.length + 2 = _
          rw [List.length_append,List.length_singleton]
        · show before.lines ++ [_] = _
          rw [lines,List.cons_append]
        · rw [List.map_append,events,List.mapIdx_append,List.map_singleton]
          simp
        · show get tally.1 metrics = _
          rw [gets,kept.metrics tally member,counted_count e tally member,List.countP_append,List.countP_singleton]
          rfl
      · refine .inr ⟨fun both => written both.2,?_⟩
        rw [← seq,← kept.run] at written
        obtain ⟨n,posted⟩ := publish_unwritten kept.enabled written
        rw [posted]
        refine ⟨kept.enabled,?_⟩
        have length := congrArg List.length events
        simp only [List.length_map,List.length_mapIdx] at length
        simp [lines,length]
    · refine .inr ⟨fun both => missing both.1,?_⟩
      by_cases written : Written clock before.run_id (before.seq + 1) e
      · obtain ⟨text,metrics,posted,-⟩ := publish_written enabled written
        rw [posted]
        exact ⟨enabled,by simpa using few⟩
      · obtain ⟨n,posted⟩ := publish_unwritten enabled written
        rw [posted]
        exact ⟨enabled,by simp; omega⟩

theorem logged_disabled (clock : Nat → String) (run_id : String) (published : List Posted) :
    (logged clock run_id false published).lines = [] ∧ (logged clock run_id false published).enabled = false := by
  induction published using List.reverseRecOn with
  | nil => exact ⟨rfl,rfl⟩
  | append_singleton published e ih =>
    rw [logged_snoc]
    obtain ⟨lines,enabled⟩ := @publish_disabled clock (logged clock run_id false published) e ih.2
    exact ⟨lines.trans ih.1,enabled⟩

/-- The lines of a whole log, after the first one. -/
theorem kept_line {rest : List Line}
    (events : rest.map Line.event = published.mapIdx fun i e => lineEvent clock run_id (i + 2) e) :
    rest.length = published.length ∧ ∀ (i : Nat) (inside : i < published.length) (there : i < rest.length),
      rest[i].event = lineEvent clock run_id (i + 2) published[i] := by
  have length := congrArg List.length events
  rw [List.length_map,List.length_mapIdx] at length
  refine ⟨length,fun i inside there => ?_⟩
  have here := congrArg (·[i]?) events
  simpa [there,inside] using here

/-- The log of a run is exact when it is written to a file and every payload is loggable under its number. -/
theorem exact_iff (clock : Nat → String) (run_id : String) (enabled : Bool) (published : List Posted) :
    Exact (logged clock run_id enabled published) published ↔
      ∀ i e, published[i]? = some e → enabled = true ∧ Loggable (i + 2) e.payload := by
  cases enabled with
  | false =>
    obtain ⟨lines,-⟩ := logged_disabled clock run_id published
    constructor
    · intro holds i e found
      have recorded := holds.recorded
      rw [lines,List.drop_nil,List.forall₂_nil_right_iff] at recorded
      rw [recorded] at found
      cases found
    · intro loggable
      cases published with
      | nil =>
        refine ⟨fun tally member => ?_,by rw [lines]; exact .nil,by rw [lines]; rfl⟩
        have zero : ∀ metric ∈ _METRICS, get metric (_METRICS.map fun metric => (metric,0)) = some 0 := by decide
        exact zero tally.1 (tallies_metrics ▸ List.mem_map_of_mem member)
      | cons e rest => exact absurd (loggable 0 e rfl).1 Bool.false_ne_true
  | true =>
    rcases logged_cases clock run_id published with ⟨whole,kept⟩ | ⟨missing,-,few⟩
    · obtain ⟨line,rest,lines,number,events⟩ := kept.first
      obtain ⟨length,event⟩ := @kept_line clock run_id published rest events
      constructor
      · intro holds i e found
        obtain ⟨inside,rfl⟩ := List.getElem?_eq_some_iff.mp found
        have there : i < rest.length := length ▸ inside
        have numbered := congrArg (·[i + 1]?) holds.numbered
        simp [lines,there,event i inside there] at numbered
        obtain ⟨clear,text,dumped⟩ := whole i _ found
        exact ⟨rfl,loggable_iff.mpr ⟨clear,⟨text,dumped⟩,numbered⟩⟩
      · intro loggable
        refine ⟨kept.metrics,?_,?_⟩
        · rw [lines,List.drop_one,List.tail_cons,List.forall₂_iff_get]
          refine ⟨length.symm,fun i inside there => ?_⟩
          have clear := (whole i published[i] (List.getElem?_eq_getElem inside)).1
          obtain ⟨topic,fields⟩ := @event_records clock run_id (if is_llm published[i].payload then "LLMCallEvent"
            else "KernelEvent")
            published[i].topic (i + 2) published[i].payload clear ""
          have same := event i inside there
          refine ⟨?_,fun key v given => ?_⟩
          · rw [List.get_eq_getElem,same]
            exact topic
          · rw [List.get_eq_getElem,same]
            exact fields key v given
        · rw [lines]
          refine List.ext_getElem (by simp) fun i below _ => ?_
          cases i with
          | zero => simpa using number
          | succ i =>
            have there : i < rest.length := by simpa using below
            have inside : i < published.length := length ▸ there
            obtain ⟨-,-,numbered⟩ := (@loggable_iff clock run_id (if is_llm published[i].payload then "LLMCallEvent"
              else "KernelEvent")
              published[i].topic (i + 2) published[i].payload).mp (loggable i _ (List.getElem?_eq_getElem inside)).2
            simp only [List.map_cons,List.getElem_cons_succ,List.getElem_map,List.getElem_range]
            rw [event i inside there]
            exact numbered
    · constructor
      · intro holds
        have length := holds.recorded.length_eq
        rw [List.length_drop] at length
        cases published with
        | nil => exact fun i e found => absurd found (by simp)
        | cons e rest =>
          simp only [List.length_cons] at length few
          omega
      · intro loggable
        exact absurd (fun i e found => ⟨((loggable i e found).2).clear,((loggable_iff.mp (loggable i e
          found).2).2).1⟩) missing

end

/-! ### Two events that are not logged as they are -/

/-- The first progress of a delegation, which has a number of its own. -/
def progressed : Posted := ⟨"delegation.progress",Dict.ofPairs [("event_id",.str "e1"),("sequence",.int
    1),("status",.str "running")]⟩

/-- A step with a key that is an argument of the logger. -/
def stepped : Posted := ⟨"graph.step",Dict.ofPairs [("step",.int 1),("kind",.str "tool")]⟩

/-- The progress is written under the number of the first line, and the step is neither written nor counted. -/
theorem progress_number_repeated :
    (logged (fun _ => "noon") "run" true [progressed]).lines.map (fun line => line.event.get "sequence") =
      [some (.int 1),some (.int 1)] ∧
    ¬ Exact (logged (fun _ => "noon") "run" true [progressed]) [progressed] ∧
    ¬ Exact (logged (fun _ => "noon") "run" true [stepped]) [stepped] := by
  have repeated : (logged (fun _ => "noon") "run" true [progressed]).lines.map (fun line => line.event.get "sequence") =
      [some (.int 1),some (.int 1)] := by decide +kernel
  refine ⟨repeated,fun holds => ?_,fun holds => ?_⟩
  · have numbered := holds.numbered
    have two : (logged (fun _ => "noon") "run" true [progressed]).lines.length = 2 := by
      simpa using congrArg List.length repeated
    rw [repeated,two] at numbered
    exact absurd numbered (by decide)
  · have steps := holds.metrics ("steps",fun e => e.topic = "graph.step") (by simp [tallies])
    exact absurd steps (by decide +kernel)

end HexAgent.EventLog
