import Norns.Lib.Utf8
import Mathlib.Data.List.Basic
import Mathlib.Order.Lattice

/-! # The usage tap

`SseEventReassembler` and `GatewayUsageTap` (`usage.ts`): a copy of the bytes of a response is cut into events, and the
token counts in them are kept. The decoder of bytes and the numbers of JSON are parameters.

* `drain`, `flush`, `push`, `finish`: the reassembler, with what `onEvent` changes as its sink;
* `absorbEvent`, `absorbBody`: the counters;
* `drain_append`, `run_chunks`: the cuts do not matter;
* `payloads`: the events that a sink sees, `payloads_eq`: they are the ones of the lines with a line feed;
* `cut_line`: the last line would be in an event;
* `tap_exact`: what the tap counts, and when a line is missed. -/

namespace Norns.Inference.UsageTap

open Norns.Lib Norns.Lib.JsonText Norns.Lib.Utf8

/-- `TextDecoder`: `decode` with `stream: true`, and `decode` without arguments at the end. -/
structure TextDecoder (σ : Type) where
  initial : σ
  decode : σ → List UInt8 → Text × σ
  flush : σ → Text × σ

variable {σ τ : Type}

/-! ### Events -/

/-- The lines of the event so far, and what `onEvent` has changed. -/
structure Reader (τ : Type) where
  data : List Text
  sink : τ

/-- `data.join("\n")` -/
def joinLines (lines : List Text) : Text := join [unit '\n'] lines

section

variable (onEvent : τ → Text → τ)

def flush (r : Reader τ) : Reader τ :=
  if r.data = [] then r
  else if joinLines r.data = units "[DONE]" then { r with data := [] }
  else ⟨[], onEvent r.sink (joinLines r.data)⟩

/-- The line without its carriage return. -/
def stripReturn (line : Text) : Text := if line.getLast? = some (unit '\r') then line.dropLast else line

/-- The value of a `data:` line. -/
def dataValue (line : Text) : Option Text :=
  if (units "data:").isPrefixOf line then
    let value := line.drop 5
    some (if value.head? = some (unit ' ') then value.tail else value)
  else none

/-- One line of the loop in `drain`. -/
def handleLine (r : Reader τ) (line : Text) : Reader τ :=
  if stripReturn line = [] then flush onEvent r
  else if (stripReturn line).head? = some (unit ':') then r
  else
    match dataValue (stripReturn line) with
    | some value => { r with data := r.data ++ [value] }
    | none => r

/-- The lines that are complete; what is left in the buffer, and the reader. -/
def drain (buffer : Text) (r : Reader τ) : Text × Reader τ :=
  if _ : unit '\n' ∈ buffer then
    drain (buffer.dropWhile fun c => c ≠ unit '\n').tail (handleLine onEvent r (buffer.takeWhile fun c => c ≠ unit '\n'))
  else (buffer, r)
termination_by buffer.length
decreasing_by
  have hne : buffer ≠ [] := List.ne_nil_of_mem ‹_›
  have hle := (List.dropWhile_suffix (l := buffer) fun c => decide (c ≠ unit '\n')).length_le
  have hpos := List.length_pos_of_ne_nil hne
  rw [List.length_tail]
  omega

/-- `SseEventReassembler` -/
structure SseEventReassembler (σ τ : Type) where
  decoder : σ
  buffer : Text
  reader : Reader τ

variable (d : TextDecoder σ)

def push (s : SseEventReassembler σ τ) (chunk : List UInt8) : SseEventReassembler σ τ :=
  let decoded := d.decode s.decoder chunk
  let drained := drain onEvent (s.buffer ++ decoded.1) s.reader
  ⟨decoded.2, drained.1, drained.2⟩

/-- `end()` -/
def finish (s : SseEventReassembler σ τ) : SseEventReassembler σ τ :=
  let decoded := d.flush s.decoder
  ⟨decoded.2, [], flush onEvent (drain onEvent (s.buffer ++ decoded.1) s.reader).2⟩

end

/-! ### Counters -/

inductive TokenField
  | input_tokens | output_tokens | cache_read_input_tokens | cache_creation_input_tokens
  deriving DecidableEq, Repr

def TokenField.name : TokenField → Text
  | .input_tokens => units "input_tokens"
  | .output_tokens => units "output_tokens"
  | .cache_read_input_tokens => units "cache_read_input_tokens"
  | .cache_creation_input_tokens => units "cache_creation_input_tokens"

abbrev GatewayTokenUsage := TokenField → ℕ

def emptyUsage : GatewayTokenUsage := fun _ => 0

structure Counters where
  usageSoFar : GatewayTokenUsage
  sawAny : Bool
  sawTerminalEvent : Bool

inductive GatewayProvider
  | anthropic | openai | deepseek
  deriving DecidableEq, Repr

variable {ν : Type}

abbrev Record (ν : Type) := List (Text × JsonText.Json ν)

def record : JsonText.Json ν → Option (Record ν)
  | .obj fields => some fields
  | _ => none

def Record.field (r : Record ν) (key : Text) : Option (JsonText.Json ν) := Assoc.lookup key r

/-- A counter takes a value that does not move it backwards. -/
def take (usage : GatewayTokenUsage) (field : TokenField) : Option ℕ → GatewayTokenUsage
  | none => usage
  | some value => if usage field ≤ value then Function.update usage field value else usage

section

variable (truncated : ν → Option ℕ)

/-- What is a finite number and not negative, without its fraction; `truncated` does so for a number. -/
def finiteInt : Option (JsonText.Json ν) → Option ℕ
  | some (.num x) => truncated x
  | _ => none

def takeAnthropicUsage (k : Counters) : Option (Record ν) → Counters × Bool
  | none => (k, false)
  | some usage =>
    let fields := [TokenField.input_tokens, .output_tokens, .cache_read_input_tokens, .cache_creation_input_tokens]
    let value := fun field : TokenField => finiteInt truncated (usage.field field.name)
    let took := fields.any fun field => (value field).isSome
    ({ k with
        usageSoFar := fields.foldl (fun u field => take u field (value field)) k.usageSoFar
        sawAny := k.sawAny || took }, took)

def absorbAnthropicEvent (k : Counters) (event : Record ν) : Counters :=
  match event.field (units "type") with
  | some (.str type) =>
    if type = units "message_start" then
      match (event.field (units "message")).bind record with
      | none => k
      | some message => (takeAnthropicUsage truncated k ((message.field (units "usage")).bind record)).1
    else if type = units "message_delta" then
      let took := takeAnthropicUsage truncated k ((event.field (units "usage")).bind record)
      { took.1 with sawTerminalEvent := took.1.sawTerminalEvent || took.2 }
    else k
  | _ => k

def takeOpenAiUsage (k : Counters) : Option (Record ν) → Counters × Bool
  | none => (k, false)
  | some usage =>
    let input := finiteInt truncated (usage.field (units "input_tokens"))
    let output := finiteInt truncated (usage.field (units "output_tokens"))
    if input.isNone && output.isNone then (k, false)
    else
      let details := (usage.field (units "input_tokens_details")).bind record
      let cacheRead := finiteInt truncated (details.bind fun r => r.field (units "cached_tokens"))
      let cacheWrite := finiteInt truncated (details.bind fun r => r.field (units "cache_write_tokens"))
      let u := take k.usageSoFar .input_tokens input
      let u := take u .output_tokens output
      let u := take u .cache_read_input_tokens cacheRead
      let u := take u .cache_creation_input_tokens cacheWrite
      ({ k with usageSoFar := u, sawAny := true }, true)

def absorbOpenAiEvent (k : Counters) (event : Record ν) : Counters :=
  match (event.field (units "response")).bind record with
  | none => k
  | some response =>
    let took := takeOpenAiUsage truncated k ((response.field (units "usage")).bind record)
    if took.2 then
      let type := match event.field (units "type") with
        | some (.str type) => type
        | _ => []
      { took.1 with sawTerminalEvent := took.1.sawTerminalEvent || type = units "response.completed" ||
          type = units "response.incomplete" || type = units "response.failed" }
    else took.1

variable (provider : GatewayProvider)

def absorbEvent (k : Counters) (event : Record ν) : Counters :=
  if provider ≠ .openai then absorbAnthropicEvent truncated k event else absorbOpenAiEvent truncated k event

def absorbBody (k : Counters) (body : Record ν) : Counters :=
  let usage := (body.field (units "usage")).bind record
  let took := if provider ≠ .openai then takeAnthropicUsage truncated k usage else takeOpenAiUsage truncated k usage
  { took.1 with sawTerminalEvent := took.1.sawTerminalEvent || took.2 }

/-! ### The tap -/

variable (f : NumberFormat ν)

def safeJson (t : Text) : Option (Record ν) := if trim t = [] then none else (parse f (trim t)).bind record

/-- What the callback of the reassembler does. -/
def onEvent (k : Counters) (payload : Text) : Counters :=
  match safeJson f payload with
  | none => k
  | some event => absorbEvent truncated provider k event

structure GatewayUsageTap (σ : Type) where
  /-- The reassembler of a streamed response; its sink holds the counters, also where it is not used. -/
  sse : SseEventReassembler σ Counters
  decoder : σ
  jsonChunks : List Text

variable (d : TextDecoder σ) (streaming : Bool)

def start : GatewayUsageTap σ := ⟨⟨d.initial, [], [], ⟨emptyUsage, false, false⟩⟩, d.initial, []⟩

def GatewayUsageTap.push (t : GatewayUsageTap σ) (chunk : List UInt8) : GatewayUsageTap σ :=
  if streaming then { t with sse := UsageTap.push (onEvent truncated provider f) d t.sse chunk }
  else
    let decoded := d.decode t.decoder chunk
    { t with decoder := decoded.2, jsonChunks := t.jsonChunks ++ [decoded.1] }

def GatewayUsageTap.finish (t : GatewayUsageTap σ) : GatewayUsageTap σ :=
  if streaming then { t with sse := UsageTap.finish (onEvent truncated provider f) d t.sse }
  else
    let decoded := d.flush t.decoder
    let body := safeJson f (t.jsonChunks ++ [decoded.1]).flatten
    let k := t.sse.reader.sink
    { t with
      decoder := decoded.2
      jsonChunks := []
      sse := { t.sse with reader := { t.sse.reader with
        sink := match body with
          | none => k
          | some body => absorbBody truncated provider k body } } }

/-- `snapshot`, `observed` and `complete` after the chunks and the end. -/
def counters (chunks : List (List UInt8)) : Counters :=
  ((chunks.foldl (GatewayUsageTap.push truncated provider f d streaming) (start d)).finish
    truncated provider f d streaming).sse.reader.sink

end

/-! ### The cuts -/

section

variable {onEvent : τ → Text → τ}

/-- A first line ends at the first line feed, whatever follows. -/
theorem line_append {x : Text} (h : unit '\n' ∈ x) (y : Text) :
    (x ++ y).takeWhile (fun c => c ≠ unit '\n') = x.takeWhile (fun c => c ≠ unit '\n') ∧
      ((x ++ y).dropWhile fun c => c ≠ unit '\n').tail = (x.dropWhile fun c => c ≠ unit '\n').tail ++ y := by
  induction x with
  | nil => cases h
  | cons c x ih =>
    by_cases hc : c = unit '\n'
    · simp [hc]
    · have hmem : unit '\n' ∈ x := by
        rcases List.mem_cons.mp h with heq | hmem
        · exact absurd heq.symm hc
        · exact hmem
      obtain ⟨htake, hdrop⟩ := ih hmem
      simp only [List.cons_append]
      rw [List.takeWhile_cons_of_pos (by simpa using hc), List.takeWhile_cons_of_pos (by simpa using hc),
        List.dropWhile_cons_of_pos (by simpa using hc), List.dropWhile_cons_of_pos (by simpa using hc), htake, hdrop]
      exact ⟨rfl, rfl⟩

theorem drain_of_mem {buffer : Text} (h : unit '\n' ∈ buffer) (r : Reader τ) : drain onEvent buffer r =
    drain onEvent (buffer.dropWhile fun c => c ≠ unit '\n').tail
      (handleLine onEvent r (buffer.takeWhile fun c => c ≠ unit '\n')) := by
  rw [drain, dif_pos h]

theorem drain_of_notMem {buffer : Text} (h : unit '\n' ∉ buffer) (r : Reader τ) :
    drain onEvent buffer r = (buffer, r) := by
  rw [drain, dif_neg h]

/-- **A text in two pieces**: what is left of the first one is drained with the second one. -/
theorem drain_append (x y : Text) (r : Reader τ) : drain onEvent (x ++ y) r =
    drain onEvent ((drain onEvent x r).1 ++ y) (drain onEvent x r).2 := by
  induction x, r using drain.induct onEvent with
  | case1 x r h ih =>
    obtain ⟨htake, hdrop⟩ := line_append h y
    rw [drain_of_mem (List.mem_append_left y h), htake, hdrop, ih, ← drain_of_mem h]
  | case2 x r h => rw [drain_of_notMem h]

variable (d : TextDecoder σ)

/-- What a decoder gives for some chunks, and its state after them. -/
def TextDecoder.outputs (d : TextDecoder σ) : σ → List (List UInt8) → Text × σ
  | s, [] => ([], s)
  | s, chunk :: chunks =>
    let rest := d.outputs (d.decode s chunk).2 chunks
    ((d.decode s chunk).1 ++ rest.1, rest.2)

/-- In stream mode the concatenation is decoded. -/
def TextDecoder.Streams (d : TextDecoder σ) (decodeAll : List UInt8 → Text) : Prop :=
  ∀ chunks, (d.outputs d.initial chunks).1 ++ (d.flush (d.outputs d.initial chunks).2).1 = decodeAll chunks.flatten

/-- **The chunks**: the reassembler has drained all that was decoded. -/
theorem run_chunks (r : Reader τ) {chunks : List (List UInt8)} : ∀ {s : SseEventReassembler σ τ} {t : Text},
    drain onEvent t r = (s.buffer, s.reader) →
    (chunks.foldl (push onEvent d) s).decoder = (d.outputs s.decoder chunks).2 ∧
      drain onEvent (t ++ (d.outputs s.decoder chunks).1) r =
        ((chunks.foldl (push onEvent d) s).buffer, (chunks.foldl (push onEvent d) s).reader) := by
  induction chunks with
  | nil =>
    intro s t h
    refine ⟨rfl, ?_⟩
    rw [show (d.outputs s.decoder []).1 = [] from rfl, List.append_nil]
    exact h
  | cons chunk chunks ih =>
    intro s t h
    have hpush : drain onEvent (t ++ (d.decode s.decoder chunk).1) r =
        ((push onEvent d s chunk).buffer, (push onEvent d s chunk).reader) := by
      rw [drain_append, h]
      rfl
    obtain ⟨hdecoder, hdrain⟩ := ih hpush
    refine ⟨hdecoder, ?_⟩
    rw [List.append_assoc] at hdrain
    exact hdrain

/-- The reader at the end of a text. -/
def readAll (onEvent : τ → Text → τ) (t : Text) (r : Reader τ) : Reader τ := flush onEvent (drain onEvent t r).2

theorem finish_chunks {decodeAll : List UInt8 → Text} (hd : d.Streams decodeAll) (r : Reader τ)
    (chunks : List (List UInt8)) :
    (finish onEvent d (chunks.foldl (push onEvent d) ⟨d.initial, [], r⟩)).reader =
      readAll onEvent (decodeAll chunks.flatten) r := by
  have hstart : drain onEvent [] r = ([], r) := drain_of_notMem List.not_mem_nil r
  have hrun : (chunks.foldl (push onEvent d) ⟨d.initial, [], r⟩).decoder = (d.outputs d.initial chunks).2 ∧
      drain onEvent ([] ++ (d.outputs d.initial chunks).1) r =
        ((chunks.foldl (push onEvent d) ⟨d.initial, [], r⟩).buffer,
          (chunks.foldl (push onEvent d) ⟨d.initial, [], r⟩).reader) :=
    run_chunks d r (s := ⟨d.initial, [], r⟩) hstart
  obtain ⟨hdecoder, hdrain⟩ := hrun
  rw [List.nil_append] at hdrain
  unfold readAll
  rw [← hd chunks, drain_append, hdrain, ← hdecoder]
  rfl

end

/-! ### The events of a text -/

/-- The sink that keeps the events. -/
def keepEvent (events : List Text) (payload : Text) : List Text := events ++ [payload]

/-- The payloads that are handed to `onEvent`. -/
def payloads (t : Text) : List Text := (readAll keepEvent t ⟨[], []⟩).sink

/-- The same lines, and the sink has seen the events. -/
def Sees (onEvent : τ → Text → τ) (k : τ) (events : Reader (List Text)) (r : Reader τ) : Prop :=
  r.data = events.data ∧ r.sink = events.sink.foldl onEvent k

section

variable {onEvent : τ → Text → τ} {k : τ}

theorem Sees.flush {events : Reader (List Text)} {r : Reader τ} (h : Sees onEvent k events r) :
    Sees onEvent k (flush keepEvent events) (flush onEvent r) := by
  obtain ⟨hdata, hsink⟩ := h
  unfold UsageTap.flush
  rw [hdata]
  split_ifs
  · exact ⟨hdata, hsink⟩
  · exact ⟨rfl, hsink⟩
  · refine ⟨rfl, ?_⟩
    unfold keepEvent
    rw [List.foldl_append, ← hsink]
    rfl

theorem Sees.handleLine {events : Reader (List Text)} {r : Reader τ} (h : Sees onEvent k events r) (line : Text) :
    Sees onEvent k (handleLine keepEvent events line) (handleLine onEvent r line) := by
  unfold UsageTap.handleLine
  split_ifs
  · exact h.flush
  · exact h
  · rcases dataValue (stripReturn line) with _ | value
    · exact h
    · exact ⟨by rw [h.1], h.2⟩

theorem Sees.drain {t : Text} {r : Reader τ} : ∀ {events : Reader (List Text)}, Sees onEvent k events r →
    Sees onEvent k (drain keepEvent t events).2 (drain onEvent t r).2 := by
  induction t, r using drain.induct onEvent with
  | case1 t r hmem ih =>
    intro events h
    rw [drain_of_mem hmem, drain_of_mem hmem]
    exact ih (h.handleLine _)
  | case2 t r hmem =>
    intro events h
    rw [drain_of_notMem hmem, drain_of_notMem hmem]
    exact h

/-- **A sink sees the events**, and nothing else. -/
theorem sink_eq (t : Text) : (readAll onEvent t ⟨[], k⟩).sink = (payloads t).foldl onEvent k := by
  have hstart : Sees onEvent k ⟨[], []⟩ ⟨[], k⟩ := ⟨rfl, rfl⟩
  exact hstart.drain.flush.2

end

/-! ### The last line -/

/-- The lines that end with a line feed. -/
def completeLines (t : Text) : List Text := (t.splitOn (unit '\n')).dropLast

/-- What follows the last line feed. -/
def lastLine (t : Text) : Text := (t.splitOn (unit '\n')).getLast (List.splitOn_ne_nil _ _)

section

variable {onEvent : τ → Text → τ}

/-- **The lines**: a drain handles the complete ones in turn and leaves the last one. -/
theorem drain_lines (t : Text) (r : Reader τ) :
    drain onEvent t r = (lastLine t, (completeLines t).foldl (handleLine onEvent) r) := by
  induction t, r using drain.induct onEvent with
  | case1 t r hmem ih =>
    obtain ⟨line, rest, hnot, rfl⟩ : ∃ line rest, unit '\n' ∉ line ∧ t = line ++ unit '\n' :: rest :=
      List.eq_append_cons_of_mem hmem |>.imp fun line h => h.imp fun rest h => ⟨h.2, h.1⟩
    have htake : (line ++ unit '\n' :: rest).takeWhile (fun c => c ≠ unit '\n') = line := by
      rw [List.takeWhile_append_of_pos]
      · simp
      · exact fun c hc => decide_eq_true fun heq => hnot (heq ▸ hc)
    have hdrop : ((line ++ unit '\n' :: rest).dropWhile fun c => c ≠ unit '\n').tail = rest := by
      rw [List.dropWhile_append_of_pos]
      · simp
      · exact fun c hc => decide_eq_true fun heq => hnot (heq ▸ hc)
    have hsplit : (line ++ unit '\n' :: rest).splitOn (unit '\n') = line :: rest.splitOn (unit '\n') :=
      List.splitOn_append_cons_self_of_not_mem hnot rest
    have hne := List.splitOn_ne_nil (unit '\n') rest
    rw [htake, hdrop] at ih
    rw [drain_of_mem hmem, htake, hdrop, ih]
    simp only [lastLine, completeLines, hsplit, List.getLast_cons hne, List.dropLast_cons_of_ne_nil hne,
      List.foldl_cons]
  | case2 t r hmem =>
    have hsplit : t.splitOn (unit '\n') = [t] := List.splitOn_eq_singleton hmem
    rw [drain_of_notMem hmem]
    simp [lastLine, completeLines, hsplit]

end

/-- The payloads of some events: data lines are joined, and the end mark is none. -/
def joined (events : List (List Text)) : List Text :=
  ((events.filter fun data => !data.isEmpty).map joinLines).filter fun payload => payload ≠ units "[DONE]"

/-- The data lines of the events of some lines; an empty line ends an event. -/
def eventsOf (lines : List Text) : List (List Text) :=
  ((lines.map stripReturn).splitOnP List.isEmpty).map (List.filterMap dataValue)

/-- What a reader of some lines should see. -/
def payloadsOf (lines : List Text) : List Text := joined (eventsOf lines)

/-- A `data:` line with complete JSON. -/
def isCompleteData (f : NumberFormat ν) (line : Text) : Bool :=
  (dataValue (stripReturn line)).any fun value => (parse f value).isSome

/-- The lines that have arrived: those with a line feed, and the last one where its data is complete. -/
def arrivedLines (f : NumberFormat ν) (t : Text) : List Text :=
  completeLines t ++ if isCompleteData f (lastLine t) then [lastLine t] else []

theorem joinLines_concat {data : List Text} (h : data ≠ []) (value : Text) :
    joinLines (data ++ [value]) = joinLines data ++ unit '\n' :: value := by
  unfold joinLines join
  induction data with
  | nil => exact absurd rfl h
  | cons line data ih =>
    cases data with
    | nil => simp [List.intercalate]
    | cons next data =>
      have hrest := ih (List.cons_ne_nil _ _)
      simp only [List.cons_append] at hrest ⊢
      simp only [List.intercalate, List.intersperse_cons_cons, List.flatten_cons] at hrest ⊢
      rw [hrest]
      simp

theorem parse_done (f : NumberFormat ν) : parse f (units "[DONE]") = none := by
  have htext : units "[DONE]" = [unit '[', unit 'D', unit 'O', unit 'N', unit 'E', unit ']'] := by decide
  rw [htext]
  rfl

/-- The payload that the last line belongs to is no end mark. -/
theorem joinLines_ne_done {f : NumberFormat ν} {value : Text} (hvalue : (parse f value).isSome) (data : List Text) :
    joinLines (data ++ [value]) ≠ units "[DONE]" := by
  intro h
  by_cases hdata : data = []
  · rw [hdata, List.nil_append] at h
    have hjoin : joinLines [value] = value := by simp [joinLines, join, List.intercalate]
    rw [hjoin] at h
    rw [h, parse_done] at hvalue
    cases hvalue
  · rw [joinLines_concat hdata] at h
    have hmem : unit '\n' ∈ units "[DONE]" := h ▸ List.mem_append_right _ List.mem_cons_self
    revert hmem
    decide

theorem joined_cons (data : List Text) (events : List (List Text)) :
    joined (data :: events) = joined [data] ++ joined events := by
  unfold joined
  rw [← List.filter_append, ← List.map_append, ← List.filter_append]
  rfl

theorem eventsOf_ne_nil (lines : List Text) : eventsOf lines ≠ [] := by
  unfold eventsOf
  simp

theorem eventsOf_cons (line : Text) (lines : List Text) : eventsOf (line :: lines) =
    if stripReturn line = [] then [] :: eventsOf lines
    else (eventsOf lines).modifyHead ((dataValue (stripReturn line)).toList ++ ·) := by
  unfold eventsOf
  rw [List.map_cons, List.splitOnP_cons_eq_if_modifyHead]
  by_cases hline : stripReturn line = []
  · rw [if_pos hline, if_pos (List.isEmpty_iff.mpr hline)]
    rfl
  · rw [if_neg hline, if_neg (by simpa using hline)]
    obtain ⟨event, rest, hsplit⟩ := List.exists_cons_of_ne_nil (List.splitOnP_ne_nil List.isEmpty (lines.map stripReturn))
    rw [hsplit, List.modifyHead_cons, List.map_cons, List.map_cons, List.modifyHead_cons, List.filterMap_cons]
    rcases dataValue (stripReturn line) with _ | value
    · rfl
    · rfl

theorem dataValue_comment {line : Text} (h : line.head? = some (unit ':')) : dataValue line = none := by
  obtain ⟨rest, rfl⟩ := List.head?_eq_some_iff.mp h
  rfl

theorem flush_record (r : Reader (List Text)) : flush keepEvent r = ⟨[], r.sink ++ joined [r.data]⟩ := by
  unfold flush keepEvent joined
  obtain ⟨data, sink⟩ := r
  split_ifs with hdata hdone
  · dsimp only at hdata ⊢
    simp [hdata]
  · simp [hdata, hdone]
  · simp [hdata, hdone]

/-- **The events**: line by line, as the lines are divided. -/
theorem foldl_record (lines : List Text) : ∀ r : Reader (List Text),
    (flush keepEvent (lines.foldl (handleLine keepEvent) r)).sink =
      r.sink ++ joined ((eventsOf lines).modifyHead (r.data ++ ·)) := by
  induction lines with
  | nil =>
    intro r
    rw [List.foldl_nil, flush_record]
    simp [eventsOf]
  | cons line lines ih =>
    intro r
    obtain ⟨event, rest, hevents⟩ := List.exists_cons_of_ne_nil (eventsOf_ne_nil lines)
    rw [List.foldl_cons, ih, eventsOf_cons, hevents]
    unfold handleLine
    by_cases hline : stripReturn line = []
    · rw [if_pos hline, if_pos hline, flush_record]
      simp only [List.modifyHead_cons, List.nil_append, List.append_nil, List.append_assoc]
      rw [joined_cons r.data (event :: rest)]
    · rw [if_neg hline, if_neg hline]
      by_cases hcomment : (stripReturn line).head? = some (unit ':')
      · rw [if_pos hcomment, dataValue_comment hcomment]
        simp
      · rw [if_neg hcomment]
        rcases dataValue (stripReturn line) with _ | value
        · simp
        · simp

theorem payloads_eq (t : Text) : payloads t = payloadsOf (completeLines t) := by
  unfold payloads readAll
  rw [drain_lines]
  have hread := foldl_record (completeLines t) ⟨[], []⟩
  obtain ⟨event, rest, hevents⟩ := List.exists_cons_of_ne_nil (eventsOf_ne_nil (completeLines t))
  rw [hevents] at hread
  unfold payloadsOf
  rw [hevents]
  exact hread

/-- **The last line**: with it, the last event is another one. -/
theorem cut_line {f : NumberFormat ν} {line : Text} (h : isCompleteData f line) (lines : List Text) :
    payloadsOf (lines ++ [line]) ≠ payloadsOf lines := by
  obtain ⟨value, hdata, hvalue⟩ := (Option.any_eq_true _ _).mp h
  have hne : stripReturn line ≠ [] := by
    intro hnil
    rw [hnil] at hdata
    cases hdata
  have hcomment : (stripReturn line).head? ≠ some (unit ':') := by
    intro hhead
    rw [dataValue_comment hhead] at hdata
    cases hdata
  have hpayloads : ∀ lines, payloadsOf lines = (flush keepEvent (lines.foldl (handleLine keepEvent) ⟨[], []⟩)).sink := by
    intro lines
    rw [foldl_record]
    obtain ⟨event, rest, hevents⟩ := List.exists_cons_of_ne_nil (eventsOf_ne_nil lines)
    unfold payloadsOf
    rw [hevents]
    rfl
  rw [hpayloads, hpayloads, List.foldl_append]
  generalize lines.foldl (handleLine keepEvent) ⟨[], []⟩ = r
  have hhandle : [line].foldl (handleLine keepEvent) r = { r with data := r.data ++ [value] } := by
    rw [List.foldl_cons, List.foldl_nil]
    unfold handleLine
    rw [if_neg hne, if_neg hcomment, hdata]
  rw [hhandle, flush_record, flush_record]
  intro heq
  have hjoined := List.append_cancel_left heq
  have hlast : joined [r.data ++ [value]] = [joinLines (r.data ++ [value])] := by
    simp [joined, joinLines_ne_done hvalue r.data]
  dsimp only at hjoined
  rw [hlast] at hjoined
  by_cases hnil : r.data = []
  · simp [joined, hnil] at hjoined
  · by_cases hdone : joinLines r.data = units "[DONE]"
    · simp [joined, hnil, hdone] at hjoined
    · have hdata : joined [r.data] = [joinLines r.data] := by simp [joined, hnil, hdone]
      rw [hdata, joinLines_concat hnil] at hjoined
      have hlen := congrArg List.length (List.cons.inj hjoined).1
      simp at hlen

/-! ### The counters -/

section

variable (truncated : ν → Option ℕ) (provider : GatewayProvider)

/-- The usage that an event reports. -/
def usageOf (event : Record ν) : Option (Record ν) :=
  if provider ≠ .openai then
    match event.field (units "type") with
    | some (.str type) =>
      if type = units "message_start" then
        ((event.field (units "message")).bind record).bind fun message => (message.field (units "usage")).bind record
      else if type = units "message_delta" then (event.field (units "usage")).bind record
      else none
    | _ => none
  else ((event.field (units "response")).bind record).bind fun response => (response.field (units "usage")).bind record

/-- The value that a usage reports for a counter; OpenAI usage without an input and an output count reports none. -/
def valueOf (usage : Record ν) (field : TokenField) : Option ℕ :=
  if provider ≠ .openai then finiteInt truncated (usage.field field.name)
  else if (finiteInt truncated (usage.field (units "input_tokens"))).isNone &&
      (finiteInt truncated (usage.field (units "output_tokens"))).isNone then none
  else
    let details := (usage.field (units "input_tokens_details")).bind record
    match field with
    | .input_tokens => finiteInt truncated (usage.field (units "input_tokens"))
    | .output_tokens => finiteInt truncated (usage.field (units "output_tokens"))
    | .cache_read_input_tokens => finiteInt truncated (details.bind fun r => r.field (units "cached_tokens"))
    | .cache_creation_input_tokens => finiteInt truncated (details.bind fun r => r.field (units "cache_write_tokens"))

/-- The value that a payload reports for a counter. -/
def reported (f : NumberFormat ν) (field : TokenField) (payload : Text) : Option ℕ :=
  ((safeJson f payload).bind (usageOf provider)).bind fun usage => valueOf truncated provider usage field

/-- The value that the body of a response reports for a counter. -/
def bodyReported (f : NumberFormat ν) (field : TokenField) (body : Text) : Option ℕ :=
  ((safeJson f body).bind fun body => (body.field (units "usage")).bind record).bind
    fun usage => valueOf truncated provider usage field

theorem take_apply (usage : GatewayTokenUsage) (field other : TokenField) (value : Option ℕ) :
    take usage field value other = if field = other then max (usage other) (value.getD 0) else usage other := by
  unfold take
  cases value with
  | none =>
    split_ifs with h
    · simp
    · rfl
  | some value =>
    dsimp only
    by_cases hother : field = other
    · subst hother
      rw [if_pos rfl, Option.getD_some]
      split_ifs with hle
      · rw [Function.update_self]
        omega
      · omega
    · rw [if_neg hother]
      split_ifs with hle
      · exact Function.update_of_ne (Ne.symm hother) _ _
      · rfl

theorem takeAnthropicUsage_apply (k : Counters) (usage : Option (Record ν)) (field : TokenField)
    (hprovider : provider ≠ .openai) : (takeAnthropicUsage truncated k usage).1.usageSoFar field =
      max (k.usageSoFar field) ((usage.bind fun usage => valueOf truncated provider usage field).getD 0) := by
  cases usage with
  | none => simp [takeAnthropicUsage]
  | some usage =>
    simp only [takeAnthropicUsage, List.foldl_cons, List.foldl_nil, take_apply, Option.bind_some, valueOf,
      if_pos hprovider]
    cases field <;> simp

theorem takeOpenAiUsage_apply (k : Counters) (usage : Option (Record ν)) (field : TokenField)
    (hprovider : ¬ provider ≠ .openai) : (takeOpenAiUsage truncated k usage).1.usageSoFar field =
      max (k.usageSoFar field) ((usage.bind fun usage => valueOf truncated provider usage field).getD 0) := by
  cases usage with
  | none => simp [takeOpenAiUsage]
  | some usage =>
    simp only [takeOpenAiUsage, Option.bind_some, valueOf, if_neg hprovider]
    split_ifs with hnone
    · simp
    · simp only [take_apply]
      cases field <;> simp

/-- **One event**: each counter is the maximum of itself and the value reported for it. -/
theorem absorbEvent_apply (k : Counters) (event : Record ν) (field : TokenField) :
    (absorbEvent truncated provider k event).usageSoFar field = max (k.usageSoFar field)
      (((usageOf provider event).bind fun usage => valueOf truncated provider usage field).getD 0) := by
  unfold absorbEvent usageOf
  by_cases hprovider : provider ≠ .openai
  · rw [if_pos hprovider, if_pos hprovider]
    unfold absorbAnthropicEvent
    split
    · split_ifs with hstart hdelta
      · rcases (event.field (units "message")).bind record with _ | message
        · simp
        · exact takeAnthropicUsage_apply truncated provider k _ field hprovider
      · exact takeAnthropicUsage_apply truncated provider k _ field hprovider
      · simp
    · simp
  · rw [if_neg hprovider, if_neg hprovider]
    unfold absorbOpenAiEvent
    rcases (event.field (units "response")).bind record with _ | response
    · simp
    · have htake := takeOpenAiUsage_apply truncated provider k ((response.field (units "usage")).bind record) field hprovider
      rw [Option.bind_some, ← htake]
      dsimp only
      split_ifs <;> rfl

theorem absorbBody_apply (k : Counters) (body : Record ν) (field : TokenField) :
    (absorbBody truncated provider k body).usageSoFar field = max (k.usageSoFar field)
      ((((body.field (units "usage")).bind record).bind fun usage => valueOf truncated provider usage field).getD 0) := by
  unfold absorbBody
  by_cases hprovider : provider ≠ .openai
  · simp only [if_pos hprovider]
    exact takeAnthropicUsage_apply truncated provider k _ field hprovider
  · simp only [if_neg hprovider]
    exact takeOpenAiUsage_apply truncated provider k _ field hprovider

theorem onEvent_apply (f : NumberFormat ν) (k : Counters) (payload : Text) (field : TokenField) :
    (onEvent truncated provider f k payload).usageSoFar field =
      max (k.usageSoFar field) ((reported truncated provider f field payload).getD 0) := by
  unfold onEvent reported
  rcases safeJson f payload with _ | event
  · simp
  · exact absorbEvent_apply truncated provider k event field

/-- The maximum of the reported values, from `0`. -/
def maximum (values : List ℕ) : ℕ := values.foldl max 0

theorem foldl_onEvent (f : NumberFormat ν) (field : TokenField) (events : List Text) : ∀ k : Counters,
    (events.foldl (onEvent truncated provider f) k).usageSoFar field =
      (events.filterMap (reported truncated provider f field)).foldl max (k.usageSoFar field) := by
  induction events with
  | nil => exact fun _ => rfl
  | cons payload events ih =>
    intro k
    rw [List.foldl_cons, ih, onEvent_apply]
    rcases hvalue : reported truncated provider f field payload with _ | value
    · rw [List.filterMap_cons_none hvalue]
      simp
    · rw [List.filterMap_cons_some hvalue]
      rfl

/-! ### The tap -/

/-- No counter, and nothing seen. -/
def noCounters : Counters := ⟨emptyUsage, false, false⟩

/-- What becomes of the body of a response that is not streamed. -/
def readBody (f : NumberFormat ν) (body : Text) : Counters :=
  match safeJson f body with
  | none => noCounters
  | some body => absorbBody truncated provider noCounters body

variable {decodeAll : List UInt8 → Text} {d : TextDecoder σ} (f : NumberFormat ν)

/-- The tap of a streamed response is its reassembler. -/
theorem foldl_push_streaming (chunks : List (List UInt8)) : ∀ t : GatewayUsageTap σ,
    (chunks.foldl (GatewayUsageTap.push truncated provider f d true) t).sse =
      chunks.foldl (UsageTap.push (onEvent truncated provider f) d) t.sse := by
  induction chunks with
  | nil => exact fun _ => rfl
  | cons chunk chunks ih =>
    intro t
    rw [List.foldl_cons, List.foldl_cons, ih]
    rfl

/-- The tap of another response collects its text. -/
theorem foldl_push_body (chunks : List (List UInt8)) : ∀ t : GatewayUsageTap σ,
    let t' := chunks.foldl (GatewayUsageTap.push truncated provider f d false) t
    t'.sse = t.sse ∧ t'.decoder = (d.outputs t.decoder chunks).2 ∧
      t'.jsonChunks.flatten = t.jsonChunks.flatten ++ (d.outputs t.decoder chunks).1 := by
  induction chunks with
  | nil =>
    intro t
    exact ⟨rfl, rfl, (List.append_nil _).symm⟩
  | cons chunk chunks ih =>
    intro t
    obtain ⟨hsse, hdecoder, htext⟩ := ih (GatewayUsageTap.push truncated provider f d false t chunk)
    refine ⟨hsse, hdecoder, ?_⟩
    rw [List.foldl_cons, htext]
    simp [GatewayUsageTap.push, TextDecoder.outputs]

theorem counters_streaming (hd : d.Streams decodeAll) (chunks : List (List UInt8)) :
    counters truncated provider f d true chunks =
      (payloads (decodeAll chunks.flatten)).foldl (onEvent truncated provider f) noCounters := by
  have hfinish : (UsageTap.finish (onEvent truncated provider f) d
      (chunks.foldl (UsageTap.push (onEvent truncated provider f) d) ⟨d.initial, [], [], noCounters⟩)).reader =
        readAll (onEvent truncated provider f) (decodeAll chunks.flatten) ⟨[], noCounters⟩ :=
    finish_chunks d hd ⟨[], noCounters⟩ chunks
  have hsse := foldl_push_streaming truncated provider f (d := d) chunks (start d)
  rw [← sink_eq, ← hfinish]
  unfold counters GatewayUsageTap.finish
  rw [if_pos rfl]
  dsimp only
  rw [hsse]
  rfl

theorem counters_body (hd : d.Streams decodeAll) (chunks : List (List UInt8)) :
    counters truncated provider f d false chunks = readBody truncated provider f (decodeAll chunks.flatten) := by
  obtain ⟨hsse, hdecoder, htext⟩ := foldl_push_body truncated provider f (d := d) chunks (start d)
  have hbody : ((chunks.foldl (GatewayUsageTap.push truncated provider f d false) (start d)).jsonChunks ++
      [(d.flush (chunks.foldl (GatewayUsageTap.push truncated provider f d false) (start d)).decoder).1]).flatten =
      decodeAll chunks.flatten := by
    rw [hdecoder, ← hd chunks, List.flatten_append, htext]
    simp [start]
  unfold counters GatewayUsageTap.finish
  rw [if_neg Bool.false_ne_true]
  dsimp only
  rw [hbody, hsse]
  rfl

/-- **The bytes**: the counters depend on nothing else. -/
theorem counters_flatten (hd : d.Streams decodeAll) (streaming : Bool) {chunks other : List (List UInt8)}
    (h : other.flatten = chunks.flatten) : counters truncated provider f d streaming other =
      counters truncated provider f d streaming chunks := by
  cases streaming with
  | true => rw [counters_streaming truncated provider f hd, counters_streaming truncated provider f hd, h]
  | false => rw [counters_body truncated provider f hd, counters_body truncated provider f hd, h]

/-- The values that are reported for a counter. -/
def reports (streaming : Bool) (field : TokenField) (t : Text) : List ℕ :=
  if streaming then (payloads t).filterMap (reported truncated provider f field)
  else (bodyReported truncated provider f field t).toList

/-- **The maximum**: each counter is the largest value reported for it. -/
theorem counters_maximum (hd : d.Streams decodeAll) (streaming : Bool) (chunks : List (List UInt8))
    (field : TokenField) : (counters truncated provider f d streaming chunks).usageSoFar field =
      maximum (reports truncated provider f streaming field (decodeAll chunks.flatten)) := by
  unfold maximum reports
  cases streaming with
  | true =>
    rw [counters_streaming truncated provider f hd, foldl_onEvent, if_pos rfl]
    rfl
  | false =>
    rw [counters_body truncated provider f hd, if_neg Bool.false_ne_true]
    unfold readBody bodyReported
    rcases safeJson f (decodeAll chunks.flatten) with _ | body
    · rfl
    · dsimp only
      rw [absorbBody_apply, Option.bind_some]
      rcases ((body.field (units "usage")).bind record).bind fun usage => valueOf truncated provider usage field with
        _ | value
      · rfl
      · rfl

/-- What a tap should do with the bytes of a response, however they are cut. -/
structure Right (d : TextDecoder σ) (decodeAll : List UInt8 → Text) (streaming : Bool) (bytes : List UInt8) : Prop where
  chunks : ∀ chunks other : List (List UInt8), chunks.flatten = bytes → other.flatten = bytes →
    counters truncated provider f d streaming chunks = counters truncated provider f d streaming other
  maximum : ∀ chunks : List (List UInt8), chunks.flatten = bytes → ∀ field,
    (counters truncated provider f d streaming chunks).usageSoFar field =
      maximum (reports truncated provider f streaming field (decodeAll bytes))
  /-- Every data line that is complete is in an event, the last one also without its line feed. -/
  lines : streaming = true → payloads (decodeAll bytes) = payloadsOf (arrivedLines f (decodeAll bytes))

/-- **The tap**: the cuts do not matter, the counters are maxima, and a complete last line is lost without its line
feed. -/
theorem tap_exact (hd : d.Streams decodeAll) (streaming : Bool) (bytes : List UInt8) :
    Right truncated provider f d decodeAll streaming bytes ↔
      (streaming = false ∨ isCompleteData f (lastLine (decodeAll bytes)) = false) := by
  constructor
  · intro h
    by_cases hcomplete : isCompleteData f (lastLine (decodeAll bytes)) = true
    · refine Or.inl (Bool.eq_false_iff.mpr fun hstreaming => ?_)
      have hlines := h.lines hstreaming
      unfold arrivedLines at hlines
      rw [payloads_eq, if_pos hcomplete] at hlines
      exact cut_line hcomplete _ hlines.symm
    · exact Or.inr (Bool.eq_false_iff.mpr hcomplete)
  · intro h
    refine ⟨?_, ?_, ?_⟩
    · intro chunks other hchunks hother
      exact counters_flatten truncated provider f hd streaming (hchunks.trans hother.symm)
    · intro chunks hchunks field
      rw [← hchunks]
      exact counters_maximum truncated provider f hd streaming chunks field
    · intro hstreaming
      rcases h with hbody | hnot
      · rw [hstreaming] at hbody
        cases hbody
      · unfold arrivedLines
        rw [payloads_eq, hnot, if_neg Bool.false_ne_true, List.append_nil]

end

/-! ### Samples -/

/-- A decoder of bytes that are characters. -/
def ascii : TextDecoder Unit where
  initial := ()
  decode _ chunk := (chunk.map fun b => Fin.ofNat 65536 b.toNat, ())
  flush _ := ([], ())

def asciiAll (bytes : List UInt8) : Text := bytes.map fun b => Fin.ofNat 65536 b.toNat

theorem ascii_streams : ascii.Streams asciiAll := by
  intro chunks
  have houtputs : (ascii.outputs () chunks).1 = asciiAll chunks.flatten := by
    induction chunks with
    | nil => rfl
    | cons chunk chunks ih =>
      show asciiAll chunk ++ (ascii.outputs () chunks).1 = asciiAll (chunk ++ chunks.flatten)
      rw [ih]
      exact List.map_append.symm
  exact (List.append_nil _).trans houtputs

/-- Numbers of one digit. -/
def digits : NumberFormat (Fin 10) where
  print n := [Fin.ofNat 65536 (48 + n.val)]
  read := readDigit

theorem digits_lawful : digits.Lawful id where
  nonempty _ := List.cons_ne_nil _ _
  units := by
    intro n c hc
    obtain rfl := List.mem_singleton.mp hc
    revert n
    decide
  read_print := by decide

/-- `{"type":"message_delta","usage":{"output_tokens":7}}` -/
def usageEvent : JsonText.Json (Fin 10) :=
  .obj [(units "type", .str (units "message_delta")), (units "usage", .obj [(units "output_tokens", .num 7)])]

theorem usageEvent_distinct : usageEvent.Distinct := by
  simp only [usageEvent, JsonText.Json.Distinct, DistinctFields]
  decide

/-- The bytes of its data line. -/
def usageLine : List UInt8 := (units "data: " ++ write digits usageEvent).map fun c => UInt8.ofNat c.val

/-- The stream ends before the line feed of its last usage: the line is complete, and is not counted. -/
theorem cut_usage : ¬ Right (fun n : Fin 10 => some n.val) .anthropic digits ascii asciiAll true usageLine := by
  intro h
  have hlines := h.lines rfl
  have hlast : lastLine (asciiAll usageLine) = asciiAll usageLine := by
    have hsplit : (asciiAll usageLine).splitOn (unit '\n') = [asciiAll usageLine] :=
      List.splitOn_eq_singleton (by decide)
    simp [lastLine, hsplit]
  have hvalue : dataValue (stripReturn (asciiAll usageLine)) = some (write digits usageEvent) := by decide
  have hcomplete : isCompleteData digits (lastLine (asciiAll usageLine)) = true := by
    unfold isCompleteData
    rw [hlast, hvalue, Option.any_some, parse_write digits_lawful usageEvent_distinct]
    rfl
  unfold arrivedLines at hlines
  rw [payloads_eq, if_pos hcomplete] at hlines
  exact cut_line hcomplete _ hlines.symm

/-- With its line feed, it is. -/
theorem whole_usage :
    Right (fun n : Fin 10 => some n.val) .anthropic digits ascii asciiAll true (usageLine ++ [10]) := by
  refine (tap_exact (fun n : Fin 10 => some n.val) .anthropic digits ascii_streams true _).mpr (Or.inr ?_)
  have hlast : lastLine (asciiAll (usageLine ++ [10])) = [] := by decide
  rw [hlast]
  rfl

end Norns.Inference.UsageTap
