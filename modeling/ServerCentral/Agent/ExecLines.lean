import ServerCentral.Agent.ExecStreams
import ServerCentral.Auth.Store
import ServerCentral.Framework.Splitting

/-!
# The output of a command, a line at a time

`runStream` hands over the output of a command in chunks that end anywhere. `runStreamingLines`
puts lines together again, each stream in a buffer of its own, and reports what is left in a
buffer once the command has returned, unless it is blank.

`Cut` says what the lines of a text are. A listener hears the lines of the whole output of a
stream (`lines_exact`), which is also what `runStream` returns (`runStream_lines`).
-/

open Framework

namespace ServerCentral.Agent

open Auth (trim)

/-! ### The source -/

structure ExecResult where
  stdout : String
  stderr : String
  code : Option Int
  deriving DecidableEq, Repr

/-- A call of `runStream`: the calls of `onChunk`, and how its promise settles. -/
structure StreamRun where
  chunks : List (OutputStream × String)
  result : Except String ExecResult

/-- All of a stream's chunks, joined. -/
def output (stream : OutputStream) (chunks : List (OutputStream × String)) : String :=
  "".intercalate (texts stream chunks)

/-- `streamExec`, with the chunks its sink gets and the exit code or error it ends with. -/
def streamExec (chunks : List (OutputStream × String)) (ending : Except String (Option Int)) :
    StreamRun :=
  ⟨chunks, ending.map fun code => ⟨output .stdout chunks, output .stderr chunks, code⟩⟩

/-- The fallback of `execStream`: all the output at the end. -/
def execAtOnce : Except String ExecResult → StreamRun
  | .error message => ⟨[], .error message⟩
  | .ok res =>
    ⟨(if res.stdout = "" then [] else [(.stdout, res.stdout)]) ++
      (if res.stderr = "" then [] else [(.stderr, res.stderr)]), .ok res⟩

structure Capabilities where
  execArgv : Bool
  execStream : Bool

/-- `chunks` and `ending` are those of `streamExec`, `reply` is the one of `exec`. -/
def runStream (argv : List String) (capabilities : Capabilities)
    (chunks : List (OutputStream × String)) (ending : Except String (Option Int))
    (reply : Except String ExecResult) : StreamRun :=
  if argv.length = 0 then ⟨[], .error "Cannot run an empty argv"⟩
  else if !capabilities.execArgv then
    if !capabilities.execStream then execAtOnce reply else streamExec chunks ending
  else streamExec chunks ending

/-- `text.split("\n")` -/
def splitLines (text : String) : List String := (text.toList.splitOn '\n').map String.ofList

/-- The record `buffered`, and the calls of `onLog`. -/
structure LineState where
  buffered : OutputStream → String
  logged : List (String × OutputStream)

def LineState.init : LineState := ⟨fun _ => "", []⟩

/-- The callback of `runStreamingLines`. -/
def LineState.onChunk (s : LineState) (chunk : OutputStream × String) : LineState :=
  let lines := splitLines (s.buffered chunk.1 ++ chunk.2)
  { buffered := Function.update s.buffered chunk.1 (lines.getLast?.getD "")
    logged := s.logged ++ lines.dropLast.map fun line => (line, chunk.1) }

/-- The end of `runStreamingLines` for one stream. -/
def LineState.flush (s : LineState) (stream : OutputStream) : List (String × OutputStream) :=
  if trim (s.buffered stream) ≠ "" then [(s.buffered stream, stream)] else []

/-- The calls of `onLog`, if there is one, and how the promise settles. -/
def runStreamingLines (onLog : Bool) (run : StreamRun) :
    List (String × OutputStream) × Except String ExecResult :=
  if !onLog then ([], run.result)
  else
    let s := run.chunks.foldl LineState.onChunk .init
    match run.result with
    | .error message => (s.logged, .error message)
    | .ok res => (s.logged ++ s.flush .stdout ++ s.flush .stderr, .ok res)

/-! ### The lines of a text -/

/-- `text` is the lines, each with its newline, and then the fragment. -/
structure Cut (text : String) (lines : List String) (fragment : String) : Prop where
  text : text.toList = join '\n' ((lines ++ [fragment]).map String.toList)
  plain : ∀ part ∈ lines ++ [fragment], '\n' ∉ part.toList

/-- What the callback logs of a text. -/
def wholeLines (text : String) : List String := (splitLines text).dropLast

/-- What it holds back. -/
def lastFragment (text : String) : String := (splitLines text).getLast?.getD ""

theorem splitLines_ne_nil (text : String) : splitLines text ≠ [] := by
  rw [splitLines, ne_eq, List.map_eq_nil_iff]
  exact List.splitOn_ne_nil '\n' text.toList

theorem wholeLines_append_lastFragment (text : String) :
    wholeLines text ++ [lastFragment text] = splitLines text := by
  have h_last := List.getLast?_eq_some_getLast (splitLines_ne_nil text)
  rw [wholeLines, lastFragment, h_last]
  exact List.dropLast_append_getLast (splitLines_ne_nil text)

theorem map_toList_splitLines (text : String) :
    (splitLines text).map String.toList = text.toList.splitOn '\n' := by
  simp [splitLines, Function.comp_def]

/-- **The lines of a text**, -/
theorem cut (text : String) : Cut text (wholeLines text) (lastFragment text) where
  text := by
    rw [wholeLines_append_lastFragment, map_toList_splitLines, join_splitOn]
  plain part h_part := by
    rw [wholeLines_append_lastFragment] at h_part
    have h_piece : part.toList ∈ text.toList.splitOn '\n' := by
      rw [← map_toList_splitLines]
      exact List.mem_map_of_mem h_part
    exact notMem_of_mem_splitOn h_piece

/-- and there are no others. -/
theorem Cut.unique {text fragment : String} {lines : List String} (h : Cut text lines fragment) :
    lines = wholeLines text ∧ fragment = lastFragment text := by
  have h_split : text.toList.splitOn '\n' = (lines ++ [fragment]).map String.toList := by
    rw [h.text]
    refine splitOn_join (by simp) fun part h_part => ?_
    obtain ⟨line, h_line, rfl⟩ := List.mem_map.mp h_part
    exact h.plain line h_line
  have h_lines : wholeLines text ++ [lastFragment text] = lines ++ [fragment] := by
    rw [wholeLines_append_lastFragment, splitLines, h_split]
    simp [Function.comp_def]
  obtain ⟨h_whole, h_last⟩ := List.append_inj' h_lines rfl
  exact ⟨h_whole.symm, (List.singleton_inj.mp h_last).symm⟩

theorem splitLines_append (text data : String) :
    splitLines (text ++ data) = wholeLines text ++ splitLines (lastFragment text ++ data) := by
  have h_last : (lastFragment text).toList = (text.toList.splitOn '\n').getLastD [] := by
    have h_some := List.getLast?_eq_some_getLast (List.splitOn_ne_nil '\n' text.toList)
    rw [lastFragment, splitLines, List.getLast?_map, List.getLastD_eq_getLast?, h_some]
    simp
  rw [splitLines, splitLines, wholeLines, splitLines, String.toList_append, String.toList_append,
    h_last, splitOn_append, List.map_append, List.map_dropLast]

/-- **A further chunk** completes what has been held back. -/
theorem wholeLines_append (text data : String) :
    wholeLines (text ++ data) = wholeLines text ++ wholeLines (lastFragment text ++ data) := by
  rw [wholeLines, splitLines_append, List.dropLast_append_of_ne_nil (splitLines_ne_nil _),
    ← wholeLines]

theorem lastFragment_append (text data : String) :
    lastFragment (text ++ data) = lastFragment (lastFragment text ++ data) := by
  rw [lastFragment, splitLines_append, List.getLast?_append_of_ne_nil _ (splitLines_ne_nil _),
    ← lastFragment]

/-! ### The chunks of a stream -/

/-- What a listener hears of one stream. -/
def linesOf (stream : OutputStream) (logged : List (String × OutputStream)) : List String :=
  (logged.filter fun entry => entry.2 = stream).map Prod.fst

@[simp] theorem linesOf_append (stream : OutputStream) (logged more : List (String × OutputStream)) :
    linesOf stream (logged ++ more) = linesOf stream logged ++ linesOf stream more := by
  simp [linesOf]

theorem linesOf_own (stream : OutputStream) (lines : List String) :
    linesOf stream (lines.map fun line => (line, stream)) = lines := by
  simp [linesOf, List.filter_map, Function.comp_def]

theorem linesOf_other {stream other : OutputStream} (h : other ≠ stream) (lines : List String) :
    linesOf stream (lines.map fun line => (line, other)) = [] := by
  simp [linesOf, List.filter_map, Function.comp_def, h]

@[simp] theorem output_nil (stream : OutputStream) : output stream [] = "" := by
  simp [output, texts]

theorem output_append (stream : OutputStream) (chunks more : List (OutputStream × String)) :
    output stream (chunks ++ more) = output stream chunks ++ output stream more := by
  rw [output, output, output, texts_append]
  by_cases h_first : texts stream chunks = []
  · simp [h_first]
  · by_cases h_more : texts stream more = []
    · simp [h_more]
    · rw [String.intercalate_append_of_ne_nil h_first h_more, String.append_empty]

theorem output_own (stream : OutputStream) (data : String) :
    output stream [(stream, data)] = data := by
  simp [output, texts]

theorem output_other {stream other : OutputStream} (h : other ≠ stream) (data : String) :
    output stream [(other, data)] = "" := by
  simp [output, texts, h]

/-- The buffers and the log after some chunks. -/
structure Carried (s : LineState) (chunks : List (OutputStream × String)) : Prop where
  buffered : ∀ stream, s.buffered stream = lastFragment (output stream chunks)
  logged : ∀ stream, linesOf stream s.logged = wholeLines (output stream chunks)

theorem Carried.init : Carried .init [] where
  buffered _ := by
    rw [output_nil]
    rfl
  logged _ := by
    rw [output_nil]
    rfl

/-- **Step lemma**: a chunk goes to its own stream only. -/
theorem Carried.onChunk {s : LineState} {chunks : List (OutputStream × String)}
    (h : Carried s chunks) (chunk : OutputStream × String) :
    Carried (s.onChunk chunk) (chunks ++ [chunk]) := by
  obtain ⟨own, data⟩ := chunk
  constructor
  · intro stream
    rw [output_append]
    by_cases h_own : own = stream
    · subst h_own
      rw [output_own, lastFragment_append, ← h.buffered own]
      exact Function.update_self ..
    · rw [output_other h_own, String.append_empty, ← h.buffered stream]
      exact Function.update_of_ne (Ne.symm h_own) ..
  · intro stream
    change linesOf stream (s.logged ++ (wholeLines (s.buffered own ++ data)).map _) = _
    rw [output_append, linesOf_append, h.logged stream]
    by_cases h_own : own = stream
    · subst h_own
      rw [linesOf_own, output_own, wholeLines_append (output own chunks), ← h.buffered own]
    · rw [linesOf_other h_own, output_other h_own, String.append_empty, List.append_nil]

/-- **Run lemma.** -/
theorem Carried.of_foldl (chunks : List (OutputStream × String)) :
    Carried (chunks.foldl LineState.onChunk .init) chunks := by
  induction chunks using List.reverseRecOn with
  | nil => exact .init
  | append_singleton chunks chunk ih =>
    rw [List.foldl_append]
    exact ih.onChunk chunk

theorem linesOf_flush (s : LineState) (stream : OutputStream) :
    linesOf stream (s.flush .stdout ++ s.flush .stderr) =
      if trim (s.buffered stream) = "" then [] else [s.buffered stream] := by
  have h_own (own : OutputStream) : linesOf own (s.flush own) =
      if trim (s.buffered own) = "" then [] else [s.buffered own] := by
    rw [LineState.flush]
    split <;> simp_all [linesOf]
  have h_other (own other : OutputStream) (h : other ≠ own) : linesOf own (s.flush other) = [] := by
    rw [LineState.flush]
    split <;> simp [linesOf, h]
  rw [linesOf_append]
  cases stream with
  | stdout => rw [h_own, h_other .stdout .stderr (by simp), List.append_nil]
  | stderr => rw [h_own, h_other .stderr .stdout (by simp), List.nil_append]

/-! ### What a listener hears -/

/-- What is logged of a call. -/
structure LinesExact (run : StreamRun) (logged : List (String × OutputStream)) : Prop where
  /-- Once the command has returned, the lines of each stream and a fragment that is not blank; -/
  returned : ∀ res, run.result = .ok res → ∀ stream, ∃ lines fragment,
    Cut (output stream run.chunks) lines fragment ∧
      linesOf stream logged = lines ++ if trim fragment = "" then [] else [fragment]
  /-- when the call fails, the lines that were complete by then. -/
  rejected : ∀ message, run.result = .error message → ∀ stream, ∃ lines fragment,
    Cut (output stream run.chunks) lines fragment ∧ linesOf stream logged = lines

theorem runStreamingLines_exact (run : StreamRun) :
    LinesExact run (runStreamingLines true run).1 := by
  have h_state := Carried.of_foldl run.chunks
  constructor
  · intro res h_res stream
    refine ⟨_, _, cut _, ?_⟩
    rw [runStreamingLines, if_neg (by simp), h_res]
    simp only [List.append_assoc]
    rw [linesOf_append, linesOf_flush, h_state.logged stream, h_state.buffered stream]
  · intro message h_message stream
    refine ⟨_, _, cut _, ?_⟩
    rw [runStreamingLines, if_neg (by simp), h_message]
    exact h_state.logged stream

/-- **A listener hears the lines of each stream**, wherever its output was cut and whatever the
other stream prints. -/
theorem lines_exact (run : StreamRun) :
    LinesExact run (runStreamingLines true run).1 ∧
      ∀ other : StreamRun, ∀ res res', run.result = .ok res → other.result = .ok res' →
        ∀ stream, output stream run.chunks = output stream other.chunks →
          linesOf stream (runStreamingLines true run).1 =
            linesOf stream (runStreamingLines true other).1 := by
  have h_run := runStreamingLines_exact run
  refine ⟨h_run, fun other res res' h_res h_res' stream h_output => ?_⟩
  obtain ⟨lines, fragment, h_cut, h_lines⟩ := h_run.returned res h_res stream
  obtain ⟨lines', fragment', h_cut', h_lines'⟩ :=
    (runStreamingLines_exact other).returned res' h_res' stream
  obtain ⟨rfl, rfl⟩ := h_cut.unique
  obtain ⟨rfl, rfl⟩ := h_cut'.unique
  rw [h_lines, h_lines', h_output]

example : (runStreamingLines true ⟨[(.stdout, "a\nb"), (.stderr, "x\n "), (.stdout, "c\nd")],
    .error "Node disconnected"⟩).1 = [("a", .stdout), ("x", .stderr), ("bc", .stdout)] := by
  decide

/-! ### Chunks and results -/

def ExecResult.text (res : ExecResult) : OutputStream → String
  | .stdout => res.stdout
  | .stderr => res.stderr

/-- The full output is still accumulated and returned, by the fallback too. -/
theorem runStream_output (argv : List String) (capabilities : Capabilities)
    (chunks : List (OutputStream × String)) (ending : Except String (Option Int))
    (reply : Except String ExecResult) {res : ExecResult}
    (h : (runStream argv capabilities chunks ending reply).result = .ok res)
    (stream : OutputStream) :
    res.text stream = output stream (runStream argv capabilities chunks ending reply).chunks := by
  have h_streamed (h : (streamExec chunks ending).result = .ok res) :
      res.text stream = output stream (streamExec chunks ending).chunks := by
    cases ending with
    | error message => cases h
    | ok code =>
      cases h
      cases stream <;> rfl
  have h_atOnce (h : (execAtOnce reply).result = .ok res) :
      res.text stream = output stream (execAtOnce reply).chunks := by
    cases reply with
    | error message => cases h
    | ok res =>
      cases h
      rw [execAtOnce, output_append]
      cases stream <;> split <;> split <;>
        simp_all [ExecResult.text, output_own, output_other]
  revert h
  rw [runStream]
  split
  · intro h
    cases h
  · split
    · split
      · exact h_atOnce
      · exact h_streamed
    · exact h_streamed

/-- A listener hears the lines of what the call returns. -/
theorem runStream_lines (argv : List String) (capabilities : Capabilities)
    (chunks : List (OutputStream × String)) (ending : Except String (Option Int))
    (reply : Except String ExecResult) {res : ExecResult}
    (h : (runStream argv capabilities chunks ending reply).result = .ok res)
    (stream : OutputStream) : ∃ lines fragment, Cut (res.text stream) lines fragment ∧
      linesOf stream
        (runStreamingLines true (runStream argv capabilities chunks ending reply)).1 =
          lines ++ if trim fragment = "" then [] else [fragment] := by
  rw [runStream_output argv capabilities chunks ending reply h stream]
  exact (runStreamingLines_exact _).returned res h stream

/-- On a connection that is the output the agent sent before its reply. -/
theorem connection_lines {tr : ProtocolTrace} {s : ProtocolState} (h : protocolMachine.Run tr s)
    {id stdout stderr : String} {code : Option Int}
    (h_returned : .returned id stdout stderr code ∈ eventsOf tr) :
    (streamExec (received id tr) (.ok code)).result = .ok ⟨stdout, stderr, code⟩ := by
  obtain ⟨-, before, msg, after, h_exact⟩ :=
    (ProtocolHistory.of_run h).returned id stdout stderr code h_returned
  rw [h_exact.stdout, h_exact.stderr, ← h_exact.received]
  rfl

end ServerCentral.Agent
