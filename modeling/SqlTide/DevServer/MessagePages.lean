import Mathlib.Data.Prod.Lex
import SqlTide.DevServer.MessageQuery
import SqlTide.Foundations.KeysetPages

/-!
# Message pages

A page of messages comes from the first time window that has enough of them, and the next page
starts behind its last message. Page after page, every message that the document asks for is read
once.
-/

namespace SqlTide.DevServer

open Foundations Foundations.Json List

/-- A row of the answer. Headers are missing where the columns are no lists. -/
structure MessageRow where
  landedAt : List Char
  kafkaTimestamp : Option (List Char)
  partition : ℤ
  offset : ℤ
  key : List Char
  keyBytes : ℤ
  valuePreview : List Char
  valueBytes : ℤ
  headers : Option (List (List Char) × List (List Char))
  preview : ℕ → List Char

structure MessagePayload where
  landedAt : List Char
  kafkaTimestamp : Option (List Char)
  partition : ℤ
  offset : ℤ
  key : List Char
  keyBytes : ℤ
  valuePreview : List Char
  valueBytes : ℤ
  valueTruncated : Bool
  headers : List (List Char × List Char)
  previewValues : List (List Char)
  deriving DecidableEq

structure MessagesPage where
  rows : List MessagePayload
  nextCursor : Option MessageQueryCursor
  windowSeconds : Option ℕ
  limit : ℤ
  deriving DecidableEq

def valuePreviewBytes : ℤ := 512

def rowPayload (previewCount : ℕ) (row : MessageRow) : MessagePayload where
  landedAt := row.landedAt
  kafkaTimestamp := row.kafkaTimestamp
  partition := row.partition
  offset := row.offset
  key := row.key
  keyBytes := row.keyBytes
  valuePreview := row.valuePreview
  valueBytes := row.valueBytes
  valueTruncated := row.valueBytes > valuePreviewBytes
  headers := match row.headers with
    | none => []
    | some (keys, values) => keys.zip values
  previewValues := (List.range previewCount).map row.preview

def nextCursor (payloads : List MessagePayload) (limit : ℤ) : Option MessageQueryCursor :=
  if payloads.length < limit then none
  else payloads.getLast?.map fun last => ⟨last.landedAt, last.partition, last.offset⟩

/-- The rows of the first window with enough of them, or of the last window. -/
def readWindows (query : Option ℕ → List MessageRow) (limit : ℤ) :
    List MessageRow × Option ℕ → List (Option ℕ) → List MessageRow × Option ℕ
  | found, [] => found
  | _, windowSeconds :: windows =>
    let rows := query windowSeconds
    if rows.length ≥ limit then (rows, windowSeconds)
    else readWindows query limit (rows, windowSeconds) windows

/-- `query` gives the answer to `buildMessagesSql` of a document and a window. -/
def readSourceMessages (python : PythonNumbers)
    (query : MessagesQueryDocument → Option ℕ → List MessageRow) (request : MessagesQueryRequest) :
    Compiled MessagesPage := do
  let document ← parseMessagesDocument python request
  let windows := if document.modeKind = "newest" then newestWindowsSeconds else [none]
  let (rows, usedWindow) := readWindows (query document) document.limit ([], none) windows
  let payloads := rows.map (rowPayload document.previewProjections.length)
  return {
    rows := payloads
    nextCursor := nextCursor payloads document.limit
    windowSeconds := usedWindow
    limit := document.limit }

/-- A message in the raw table, with its landing time in milliseconds. -/
structure LandedMessage where
  landedAt : ℤ
  partition : ℕ
  offset : ℕ
  deriving DecidableEq

def LandedMessage.position (message : LandedMessage) : ℤ ×ₗ ℕ ×ₗ ℕ :=
  toLex (message.landedAt, toLex (message.partition, message.offset))

/-- A static table. `holds` is the meaning of the conditions of a document. Its landing times are
read back from their texts, and a cursor condition compares positions. -/
structure LandingTable (python : PythonNumbers) where
  messages : List LandedMessage
  row : LandedMessage → MessageRow
  readTime : List Char → ℤ
  holds : List Char → LandedMessage → Bool
  distinct : (messages.map LandedMessage.position).Nodup
  row_partition : ∀ message ∈ messages, (row message).partition = message.partition
  row_offset : ∀ message ∈ messages, (row message).offset = message.offset
  isIsoTime_row : ∀ message ∈ messages, python.isIsoTime (isoText (row message).landedAt) = true
  readTime_row : ∀ message ∈ messages, readTime (row message).landedAt = message.landedAt
  holds_cursor : ∀ last ∈ messages, ∀ condition,
    cursorCondition python ⟨(row last).landedAt, last.partition, last.offset⟩ = .ok condition →
    ∀ message ∈ messages, holds condition message = decide (message.position <
      toLex (readTime (row last).landedAt, toLex (last.partition, last.offset)))

variable {python : PythonNumbers} (table : LandingTable python)

namespace LandingTable

def filterHolds (conditions : List (List Char)) (message : LandedMessage) : Bool :=
  conditions.all (table.holds · message)

def cursorHolds (condition : Option (List Char)) (message : LandedMessage) : Bool :=
  condition.all (table.holds · message)

/-- `now64(3)` is in milliseconds. -/
def windowHolds (now : ℤ) (windowSeconds : Option ℕ) (message : LandedMessage) : Bool :=
  windowSeconds.all fun seconds => decide (now - seconds * 1000 ≤ message.landedAt)

/-- The answer to `buildMessagesSql`. -/
def answer (now : ℤ) (document : MessagesQueryDocument) (windowSeconds : Option ℕ) :
    List MessageRow :=
  let selected := table.messages.filter fun message =>
    table.filterHolds document.conditions message && windowHolds now windowSeconds message &&
      table.cursorHolds document.cursorCondition message
  ((sortDescending LandedMessage.position selected).take document.limit.toNat).map table.row

/-- All messages that a document asks for. -/
def matching (conditions : List (List Char)) : List LandedMessage :=
  sortDescending LandedMessage.position (table.messages.filter (table.filterHolds conditions))

def payload (document : MessagesQueryDocument) (message : LandedMessage) : MessagePayload :=
  rowPayload document.previewProjections.length (table.row message)

end LandingTable

/-- Page after page, each from the cursor of the one before it, with a limit for each of them. The
clock is read for each window of each page. -/
def readPages (clock : ℕ → Option ℕ → ℤ) (limits : ℕ → ℤ) (request : MessagesQueryRequest) :
    ℕ → ℕ → Option MessageQueryCursor → Compiled (Option (List MessagePayload))
  | 0, _, _ => .ok none
  | fuel + 1, call, cursor => do
    let page ← readSourceMessages python
      (fun document windowSeconds => table.answer (clock call windowSeconds) document windowSeconds)
      { request with limit := limits call, cursor }
    match page.nextCursor with
    | none => return some page.rows
    | some next =>
      let more ← readPages clock limits request fuel (call + 1) (some next)
      return more.map (page.rows ++ ·)

namespace LandingTable

variable {table} {document : MessagesQueryDocument} {conditions : List (List Char)}
  {message : LandedMessage}

@[simp] theorem mem_matching :
    message ∈ table.matching conditions ↔
      message ∈ table.messages ∧ table.filterHolds conditions message = true := by
  rw [matching, mem_sortDescending, mem_filter]

theorem descending_matching (table : LandingTable python) (conditions : List (List Char)) :
    Descending LandedMessage.position (table.matching conditions) :=
  descending_sortDescending (table.distinct.sublist (filter_sublist.map _))

theorem windowHolds_of_lt (now : ℤ) (windowSeconds : Option ℕ) (message message' : LandedMessage)
    (hlt : message.position < message'.position)
    (h : windowHolds now windowSeconds message = true) :
    windowHolds now windowSeconds message' = true := by
  have hlanded : message.landedAt ≤ message'.landedAt := by
    rcases Prod.Lex.lt_iff.mp hlt with hless | hsame
    · exact le_of_lt hless
    · exact le_of_eq hsame.1
  cases windowSeconds with
  | none => rfl
  | some seconds =>
    have hstart : now - seconds * 1000 ≤ message.landedAt := by simpa [windowHolds] using h
    simpa [windowHolds] using hstart.trans hlanded

theorem answer_eq (now : ℤ) (document : MessagesQueryDocument) (windowSeconds : Option ℕ) :
    table.answer now document windowSeconds =
      ((((table.matching document.conditions).filter
        (table.cursorHolds document.cursorCondition)).filter
          (windowHolds now windowSeconds)).take document.limit.toNat).map table.row := by
  have hselected : (table.messages.filter fun message =>
      table.filterHolds document.conditions message && windowHolds now windowSeconds message &&
        table.cursorHolds document.cursorCondition message) =
      ((table.messages.filter (table.filterHolds document.conditions)).filter
        (table.cursorHolds document.cursorCondition)).filter (windowHolds now windowSeconds) := by
    rw [filter_filter, filter_filter]
    apply filter_congr
    intro message _
    cases table.filterHolds document.conditions message <;>
      cases windowHolds now windowSeconds message <;> simp
  have hdistinct : ∀ p : LandedMessage → Bool,
      ((table.messages.filter p).map LandedMessage.position).Nodup :=
    fun p => table.distinct.sublist (filter_sublist.map _)
  rw [answer, hselected, sortDescending_filter, sortDescending_filter (hdistinct _)]
  · rfl
  · rw [filter_filter]
    exact hdistinct _

theorem answer_none (now now' : ℤ) (document : MessagesQueryDocument) :
    table.answer now document none = table.answer now' document none := rfl

/-- A window with enough messages has the page of the whole table. -/
theorem answer_eq_of_enough {now now' : ℤ} {windowSeconds : Option ℕ}
    (h : ((table.answer now document windowSeconds).length : ℤ) ≥ document.limit) :
    table.answer now document windowSeconds = table.answer now' document none := by
  rw [answer_eq] at h
  rw [answer_eq, answer_eq]
  have hbehind := (descending_matching table document.conditions).filter
    (table.cursorHolds document.cursorCondition)
  have hall : ((table.matching document.conditions).filter
      (table.cursorHolds document.cursorCondition)).filter (windowHolds now' none) =
      (table.matching document.conditions).filter (table.cursorHolds document.cursorCondition) :=
    filter_eq_self.mpr fun _ _ => rfl
  rw [hall]
  congr 1
  apply Descending.take_filter hbehind (windowHolds_of_lt now windowSeconds)
  rw [length_map, length_take] at h
  omega

end LandingTable

/-- Where every window with enough rows has the same ones, and the last window has no bound. -/
theorem readWindows_eq (query : Option ℕ → List MessageRow) {limit : ℤ} {rows : List MessageRow}
    {windows : List (Option ℕ)} (found : List MessageRow × Option ℕ)
    (hlast : windows.getLast? = some none) (hnone : query none = rows)
    (henough : ∀ windowSeconds, ((query windowSeconds).length : ℤ) ≥ limit →
      query windowSeconds = rows) : (readWindows query limit found windows).1 = rows := by
  induction windows generalizing found with
  | nil => cases hlast
  | cons windowSeconds windows ih =>
    rw [readWindows]
    split_ifs with hstop
    · exact henough windowSeconds hstop
    · cases windows with
      | nil =>
        cases hlast
        exact hnone
      | cons next windows =>
        rw [getLast?_cons_cons] at hlast
        exact ih _ hlast

variable {table} {request : MessagesQueryRequest} {document : MessagesQueryDocument}

/-- A page has the rows of the query without a window, whatever the clock shows. -/
theorem readSourceMessages_eq (table : LandingTable python) (clock : Option ℕ → ℤ) (now : ℤ)
    (h : parseMessagesDocument python request = .ok document) :
    ∃ usedWindow, readSourceMessages python
      (fun document windowSeconds => table.answer (clock windowSeconds) document windowSeconds)
      request = .ok {
        rows := (table.answer now document none).map
          (rowPayload document.previewProjections.length)
        nextCursor := nextCursor ((table.answer now document none).map
          (rowPayload document.previewProjections.length)) document.limit
        windowSeconds := usedWindow
        limit := document.limit } := by
  have hwindows : (if document.modeKind = "newest" then newestWindowsSeconds
      else [none]).getLast? = some none := by
    split_ifs <;> rfl
  have henough : ∀ windowSeconds,
      ((table.answer (clock windowSeconds) document windowSeconds).length : ℤ) ≥ document.limit →
        table.answer (clock windowSeconds) document windowSeconds =
          table.answer now document none :=
    fun _ => LandingTable.answer_eq_of_enough
  have hrows := readWindows_eq (fun windowSeconds =>
    table.answer (clock windowSeconds) document windowSeconds) ([], none) hwindows
    (LandingTable.answer_none (clock none) now document) henough
  generalize hfound : readWindows _ document.limit ([], none) _ = found at hrows
  obtain ⟨rows, usedWindow⟩ := found
  dsimp only at hrows
  subst hrows
  refine ⟨usedWindow, ?_⟩
  rw [readSourceMessages, h]
  simp only [bind, Except.bind, hfound]
  rfl

/-- The cursor behind the last of the messages that are read. -/
def LandingTable.cursorBehind (table : LandingTable python) (before : List LandedMessage) :
    Option MessageQueryCursor :=
  before.getLast?.map fun last => ⟨(table.row last).landedAt, last.partition, last.offset⟩

theorem cursorCondition_of_mem {last : LandedMessage} (h : last ∈ table.messages) :
    ∃ condition, cursorCondition python ⟨(table.row last).landedAt, last.partition, last.offset⟩ =
      .ok condition := by
  have hnonneg : ∀ (n : ℕ) (fieldName : String), requireNonNegative n fieldName = .ok () :=
    fun n _ => requireNonNegative_eq_ok.mpr (Int.natCast_nonneg n)
  rw [cursorCondition, hnonneg, hnonneg, timeLiteral, if_pos (table.isIsoTime_row last h)]
  exact ⟨_, rfl⟩

variable {before rest : List LandedMessage}

theorem cursorBehind_condition {conditions : List (List Char)}
    (h : table.matching conditions = before ++ rest) :
    ∃ condition, (table.cursorBehind before).mapM (cursorCondition python) = .ok condition ∧
      (table.matching conditions).filter (table.cursorHolds condition) = rest := by
  have hdescending := table.descending_matching conditions
  rw [h] at hdescending ⊢
  have hmem : ∀ message ∈ before ++ rest, message ∈ table.messages := by
    rw [← h]
    exact fun message hmessage => (LandingTable.mem_matching.mp hmessage).1
  rw [LandingTable.cursorBehind]
  cases hlast : before.getLast? with
  | none =>
    rw [getLast?_eq_none_iff.mp hlast]
    exact ⟨none, rfl, filter_eq_self.mpr fun _ _ => rfl⟩
  | some last =>
    have hlastMem : last ∈ table.messages := hmem last (mem_append_left _ (mem_of_getLast? hlast))
    obtain ⟨condition, hcondition⟩ := cursorCondition_of_mem hlastMem
    refine ⟨some condition, ?_, ?_⟩
    · rw [Option.map_some, Option.mapM_some, hcondition]
      rfl
    · conv_rhs => rw [← hdescending.filter_behind]
      apply filter_congr
      intro message hmessage
      have hholds := table.holds_cursor last hlastMem condition hcondition message
        (hmem message hmessage)
      rw [table.readTime_row last hlastMem] at hholds
      rw [LandingTable.cursorHolds, Option.all_some, hholds, hlast, decide_eq_decide]
      constructor
      · rintro hlt _ ⟨⟩
        exact hlt
      · intro hbehind
        exact hbehind last rfl

/-- A page of the query without a window, from what is left of the messages. -/
theorem answer_rest (h : (table.matching document.conditions).filter
      (table.cursorHolds document.cursorCondition) = rest) (now : ℤ) :
    table.answer now document none = (rest.take document.limit.toNat).map table.row := by
  have hall : rest.filter (LandingTable.windowHolds now none) = rest :=
    filter_eq_self.mpr fun _ _ => rfl
  rw [LandingTable.answer_eq, h, hall]

theorem nextCursor_eq {previewCount limit : ℕ}
    (hmem : ∀ message ∈ rest, message ∈ table.messages) (hlimit : 0 < limit) :
    nextCursor (((rest.take limit).map table.row).map (rowPayload previewCount)) limit =
      if rest.length < limit then none
      else table.cursorBehind (before ++ rest.take limit) := by
  have hlength : (((rest.take limit).map table.row).map (rowPayload previewCount)).length =
      min limit rest.length := by
    rw [length_map, length_map, length_take]
  rw [nextCursor, hlength]
  split_ifs with hshort hrest hrest
  · rfl
  · omega
  · omega
  · have hne : rest.take limit ≠ [] := by
      apply ne_nil_of_length_pos
      rw [length_take]
      omega
    obtain ⟨last, hlast⟩ : ∃ last, (rest.take limit).getLast? = some last :=
      ⟨_, getLast?_eq_some_getLast hne⟩
    have hlastMem := hmem last (mem_of_mem_take (mem_of_getLast? hlast))
    rw [LandingTable.cursorBehind, getLast?_append, hlast, getLast?_map, getLast?_map, hlast]
    simp [rowPayload, table.row_partition last hlastMem, table.row_offset last hlastMem]

theorem readSourceMessages_rest (clock : Option ℕ → ℤ) (pageLimit : ℤ)
    (haccepted : parseMessagesDocument python { request with cursor := none } = .ok document)
    (h : table.matching document.conditions = before ++ rest) :
    ∃ page, ∃ limit : ℕ, 0 < limit ∧ readSourceMessages python
      (fun document windowSeconds => table.answer (clock windowSeconds) document windowSeconds)
      { request with limit := pageLimit, cursor := table.cursorBehind before } = .ok page ∧
      page.rows = (rest.take limit).map (table.payload document) ∧
      page.nextCursor =
        if rest.length < limit then none else table.cursorBehind (before ++ rest.take limit) := by
  obtain ⟨condition, hcondition, hrest⟩ := cursorBehind_condition h
  have hparse := parseMessagesDocument_page pageLimit haccepted hcondition
  obtain ⟨usedWindow, hpage⟩ := readSourceMessages_eq table clock 0 hparse
  obtain ⟨limit, hlimit⟩ : ∃ limit : ℕ, min (max pageLimit 1) 500 = limit :=
    Int.eq_ofNat_of_zero_le (by omega)
  have hmem : ∀ message ∈ rest, message ∈ table.messages := by
    intro message hmessage
    have hmatching : message ∈ table.matching document.conditions := by
      rw [h]
      exact mem_append_right before hmessage
    exact (LandingTable.mem_matching.mp hmatching).1
  rw [answer_rest hrest] at hpage
  simp only [hlimit, Int.toNat_natCast] at hpage
  refine ⟨_, limit, by omega, hpage, ?_, ?_⟩
  · rw [map_map]
    rfl
  · exact nextCursor_eq hmem (by omega)

/-- By induction on the fuel: from the cursor behind the messages that are read, the pages have the
other ones. -/
theorem readPages_eq (clock : ℕ → Option ℕ → ℤ) (limits : ℕ → ℤ)
    (haccepted : parseMessagesDocument python { request with cursor := none } = .ok document)
    (h : table.matching document.conditions = before ++ rest)
    {fuel : ℕ} (hfuel : rest.length < fuel) (call : ℕ) :
    readPages table clock limits request fuel call (table.cursorBehind before) =
      .ok (some (rest.map (table.payload document))) := by
  induction fuel generalizing before rest call with
  | zero => cases hfuel
  | succ fuel ih =>
    obtain ⟨page, limit, hpositive, hpage, hrows, hnext⟩ :=
      readSourceMessages_rest (clock call) (limits call) haccepted h
    rw [readPages, hpage]
    simp only [bind, Except.bind, hrows, hnext]
    split_ifs with hshort
    · rw [take_of_length_le (by omega)]
      rfl
    · have hsplit : table.matching document.conditions =
          (before ++ rest.take limit) ++ rest.drop limit := by
        rw [append_assoc, take_append_drop, h]
      have hmore := ih hsplit (by rw [length_drop]; omega) (call + 1)
      have hne : before ++ rest.take limit ≠ [] := by
        apply ne_nil_of_length_pos
        rw [length_append, length_take]
        omega
      have hcursor := getLast?_eq_some_getLast hne
      simp only [LandingTable.cursorBehind, hcursor, Option.map_some] at hmore ⊢
      have hjoin : rest.map (table.payload document) =
          (rest.take limit).map (table.payload document) ++
            (rest.drop limit).map (table.payload document) := by
        rw [← map_append, take_append_drop]
      rw [hmore, hjoin]
      rfl

/-- Page after page, the messages that a document asks for are read, each once and the newest first,
and each page has the rows of the query without a window. -/
theorem paging_visits_each_message_once (table : LandingTable python)
    (haccepted : parseMessagesDocument python { request with cursor := none } = .ok document) :
    (∃ visited : List LandedMessage,
      (∀ message, message ∈ visited ↔
        message ∈ table.messages ∧ ∀ condition ∈ document.conditions,
          table.holds condition message = true) ∧
      (visited.Pairwise fun message message' => message'.position < message.position) ∧
      ∀ (clock : ℕ → Option ℕ → ℤ) (limits : ℕ → ℤ) (fuel : ℕ), visited.length < fuel →
        readPages table clock limits request fuel 0 none =
          .ok (some (visited.map (table.payload document)))) ∧
    ∀ (clock : Option ℕ → ℤ) (now limit : ℤ) (cursor : Option MessageQueryCursor)
      (page : MessagesPage),
      readSourceMessages python
        (fun document windowSeconds => table.answer (clock windowSeconds) document windowSeconds)
        { request with limit, cursor } = .ok page →
      ∃ document', parseMessagesDocument python { request with limit, cursor } = .ok document' ∧
        page.rows = (table.answer now document' none).map
          (rowPayload document'.previewProjections.length) ∧
        page.nextCursor = nextCursor page.rows document'.limit := by
  refine ⟨⟨table.matching document.conditions, ?_, ?_, ?_⟩, ?_⟩
  · intro message
    rw [LandingTable.mem_matching, LandingTable.filterHolds, all_eq_true]
  · exact table.descending_matching document.conditions
  · intro clock limits fuel hfuel
    have hstart : table.matching document.conditions =
        [] ++ table.matching document.conditions := rfl
    exact readPages_eq clock limits haccepted hstart hfuel 0
  · intro clock now limit cursor page hpage
    cases hparse : parseMessagesDocument python { request with limit, cursor } with
    | error e =>
      rw [readSourceMessages, hparse] at hpage
      cases hpage
    | ok document' =>
      obtain ⟨usedWindow, hread⟩ := readSourceMessages_eq table clock now hparse
      rw [hread] at hpage
      cases hpage
      exact ⟨document', rfl, rfl, rfl⟩

/-- Two messages that landed in the same millisecond. -/
def exampleMessages : List LandedMessage := [⟨1500, 0, 7⟩, ⟨1500, 1, 3⟩]

def exampleTime : List Char := "1970-01-01 00:00:01.500".toList

def exampleClockText : PythonNumbers :=
  ⟨fun text => text = "1970-01-01T00:00:01.500".toList, fun _ => none⟩

def exampleRow (message : LandedMessage) : MessageRow where
  landedAt := exampleTime
  kafkaTimestamp := none
  partition := message.partition
  offset := message.offset
  key := []
  keyBytes := 0
  valuePreview := []
  valueBytes := 0
  headers := some ([], [])
  preview := fun _ => []

def exampleCondition (last : LandedMessage) : List Char :=
  ((cursorCondition exampleClockText ⟨exampleTime, last.partition, last.offset⟩).toOption).getD []

/-- The newest messages, without filters. -/
def exampleRequest : MessagesQueryRequest where
  mode := ⟨"newest", none, none, none, none, none⟩
  predicates := []
  limit := 1
  cursor := none
  timeColumn := "landed"
  previewPaths := []

def exampleTable : LandingTable exampleClockText where
  messages := exampleMessages
  row := exampleRow
  readTime := fun _ => 1500
  holds := fun condition message => exampleMessages.all fun last =>
    exampleCondition last ≠ condition || decide (message.position < last.position)
  distinct := by decide
  row_partition := fun _ _ => rfl
  row_offset := fun _ _ => rfl
  isIsoTime_row := by
    have htime : exampleClockText.isIsoTime (isoText exampleTime) = true := by decide
    exact fun _ _ => htime
  readTime_row := by decide
  holds_cursor := by
    intro last hlast condition hcondition message hmessage
    obtain rfl : exampleCondition last = condition := by
      have htext := congrArg (fun result => result.toOption.getD []) hcondition
      exact htext
    clear hcondition
    revert message
    revert last
    decide +kernel

/-- Both messages are read, in two pages of one message and a third one. -/
theorem paging_visits_each_message_once_tie :
    ∃ visited : List LandedMessage, (∀ message, message ∈ visited ↔ message ∈ exampleMessages) ∧
      ∀ fuel, visited.length < fuel →
        readPages exampleTable (fun _ _ => 0) (fun _ => 1) exampleRequest fuel 0 none =
          .ok (some (visited.map fun message => rowPayload 0 (exampleRow message))) := by
  have haccepted : parseMessagesDocument exampleClockText { exampleRequest with cursor := none } =
      .ok _ := rfl
  obtain ⟨visited, hmem, -, hpages⟩ := (paging_visits_each_message_once exampleTable haccepted).1
  refine ⟨visited, fun message => ?_, fun fuel hfuel =>
    hpages (fun _ _ => 0) (fun _ => 1) fuel hfuel⟩
  rw [hmem]
  simp [exampleTable]

end SqlTide.DevServer
