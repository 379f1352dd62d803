import CacheSelect.Lib.OrderedDict
import CacheSelect.Observability.RequestRecorder
import Mathlib.Data.List.Count

/-! # The request ledger

A ledger is a file of events, one JSON object a line: `request_started` before a request is sent, and
`request_completed` or `request_failed` when it is over.  `validateLedger` audits such a file in one pass.

`LedgerLine` is what the audit reads of a line.  `Paired` is what it checks, and `WellFormed` adds that
a terminal event comes after the start of its request, which the audit does not look at: it notes the line
numbers of both, and never compares them.  `validateLedger_audits` says when the audit is right all the same.

`Recorders` are any number of recorders that append to one file; what they write is well formed.
-/

namespace CacheSelect.Observability

open OrderedDict

/-! ### The audit -/

/-- A line of a ledger: the id and the name of its event, where it has them.  The ids are texts. -/
inductive LedgerLine
  | notJson
  | notObject
  | event (requestId : Option String) (name : Option String)
deriving DecidableEq, Repr

/-- What `validate_ledger` raises. -/
inductive LedgerError
  | notJson (lineNumber : Nat)
  | attributeError
  | noRequestId (lineNumber : Nat)
  | duplicateStarted (requestId : String) (lineNumber : Nat)
  | duplicateTerminal (requestId : String) (lineNumber : Nat)
  | unknownEvent (name : Option String) (lineNumber : Nat)
  | orphaned (requestIds : List String)
deriving DecidableEq, Repr

/-- The text of the error; `repr` stands for the conversion `!r`. -/
def LedgerError.message (repr : Option String → String) (path : String) : LedgerError → String
  | .notJson n => s!"{path}:{n} is not valid JSON"
  | .attributeError => "object has no attribute 'get'"
  | .noRequestId n => s!"{path}:{n} has no request_id"
  | .duplicateStarted id n => s!"Duplicate request_started for {id} at {path}:{n}"
  | .duplicateTerminal id n => s!"Duplicate terminal event for {id} at {path}:{n}"
  | .unknownEvent name n => s!"{path}:{n} has unknown event {repr name}"
  | .orphaned ids => "Terminal events without request_started: " ++ ", ".intercalate ids

/-- The two dictionaries of the audit. -/
structure LedgerScan where
  started : List (String × Nat) := []
  terminal : List (String × String × Nat) := []

/-- The body of the loop over the lines. -/
def scanLine (scan : LedgerScan) (lineNumber : Nat) : LedgerLine → Except LedgerError LedgerScan
  | .notJson => .error (.notJson lineNumber)
  | .notObject => .error .attributeError
  | .event none _ => .error (.noRequestId lineNumber)
  | .event (some requestId) name =>
      if requestId = "" then .error (.noRequestId lineNumber)
      else if name = some "request_started" then
        if requestId ∈ keys scan.started then .error (.duplicateStarted requestId lineNumber)
        else .ok { scan with started := scan.started ++ [(requestId, lineNumber)] }
      else if name = some "request_completed" ∨ name = some "request_failed" then
        if requestId ∈ keys scan.terminal then .error (.duplicateTerminal requestId lineNumber)
        else .ok { scan with
          terminal := scan.terminal ++ [(requestId, name.getD "", lineNumber)] }
      else .error (.unknownEvent name lineNumber)

def scanLines : LedgerScan → Nat → List LedgerLine → Except LedgerError LedgerScan
  | scan, _, [] => .ok scan
  | scan, lineNumber, line :: lines =>
      match scanLine scan lineNumber line with
      | .error e => .error e
      | .ok scan => scanLines scan (lineNumber + 1) lines

structure LedgerSummary where
  path : String
  started : Nat
  completed : Nat
  failed : Nat
  incompleteRequestIds : List String
deriving DecidableEq, Repr

def LedgerSummary.isComplete (s : LedgerSummary) : Bool :=
  s.incompleteRequestIds.isEmpty

/-- `sorted(set(a) - set(b))` for the keys of two dictionaries. -/
def sortedDifference (a b : List String) : List String :=
  (a.filter fun id => id ∉ b).mergeSort fun x y => decide (x ≤ y)

def validateLedger (path : String) (lines : List LedgerLine) : Except LedgerError LedgerSummary :=
  match scanLines {} 1 lines with
  | .error e => .error e
  | .ok scan =>
      let orphaned := sortedDifference (keys scan.terminal) (keys scan.started)
      if orphaned ≠ [] then .error (.orphaned orphaned)
      else .ok {
        path := path
        started := scan.started.length
        completed := scan.terminal.countP fun t => t.2.1 = "request_completed"
        failed := scan.terminal.countP fun t => t.2.1 = "request_failed"
        incompleteRequestIds := sortedDifference (keys scan.started) (keys scan.terminal) }

/-! ### Well-formed ledgers -/

namespace LedgerLine

/-- The request that the line starts. -/
def startOf : LedgerLine → Option String
  | .event (some id) name => if name = some "request_started" then some id else none
  | _ => none

/-- The request that the line ends, with the name of the event. -/
def terminalOf : LedgerLine → Option (String × String)
  | .event (some id) name =>
      if name = some "request_completed" ∨ name = some "request_failed" then some (id, name.getD "")
      else none
  | _ => none

/-- The request that the line ends. -/
def endOf (l : LedgerLine) : Option String :=
  l.terminalOf.map Prod.fst

/-- The line is a lifecycle event of a request. -/
def IsEvent (l : LedgerLine) : Prop :=
  ∃ id, id ≠ "" ∧ (l.startOf = some id ∨ l.endOf = some id)

end LedgerLine

open LedgerLine

/-- Every line is an event, every request has one start, and one end at most. -/
structure Paired (lines : List LedgerLine) : Prop where
  isEvent : ∀ l ∈ lines, l.IsEvent
  startedOnce : ∀ id, (∃ l ∈ lines, l.startOf = some id ∨ l.endOf = some id) →
    lines.countP (fun l => l.startOf = some id) = 1
  endedOnce : ∀ id, lines.countP (fun l => l.endOf = some id) ≤ 1

/-- No request starts after it has ended. -/
def StartsFirst (lines : List LedgerLine) : Prop :=
  lines.Pairwise fun l l' => ∀ id, l.endOf = some id → l'.startOf ≠ some id

structure WellFormed (lines : List LedgerLine) : Prop extends Paired lines where
  startsFirst : StartsFirst lines

/-- The summary tells what is in the ledger. -/
structure LedgerSummary.Summarizes (s : LedgerSummary) (lines : List LedgerLine) : Prop where
  started : s.started = lines.countP fun l => l.startOf.isSome
  completed : s.completed = lines.countP fun l => l.terminalOf.any fun t => t.2 = "request_completed"
  failed : s.failed = lines.countP fun l => l.terminalOf.any fun t => t.2 = "request_failed"
  nodup : s.incompleteRequestIds.Nodup
  incomplete : ∀ id, id ∈ s.incompleteRequestIds ↔
    (∃ l ∈ lines, l.startOf = some id) ∧ ¬ ∃ l ∈ lines, l.endOf = some id

/-! ### The pass over the lines -/

theorem toList_append_filterMap {α β : Type} (f : α → Option β) (a : α) (l : List α) :
    (f a).toList ++ l.filterMap f = (a :: l).filterMap f := by
  rw [List.filterMap_cons]
  cases f a with
  | none => rfl
  | some b => rfl

theorem nodup_append_toList {α : Type} {ks : List α} (hks : ks.Nodup) {o : Option α} :
    (ks ++ o.toList).Nodup ↔ ∀ a, o = some a → a ∉ ks := by
  cases o with
  | none => simpa using hks
  | some a =>
      rw [Option.toList_some, List.nodup_append]
      refine ⟨fun h b hb hin => ?_, fun h => ⟨hks, List.nodup_singleton a, ?_⟩⟩
      · obtain rfl := Option.some.inj hb
        exact h.2.2 a hin a List.mem_cons_self rfl
      · rintro x hx y hy rfl
        exact h x (congrArg some (List.mem_singleton.mp hy).symm) hx

namespace LedgerScan

/-- The scan after a line that it accepts. -/
def add (scan : LedgerScan) (lineNumber : Nat) (l : LedgerLine) : LedgerScan where
  started := scan.started ++ l.startOf.toList.map fun id => (id, lineNumber)
  terminal := scan.terminal ++ l.terminalOf.toList.map fun t => (t.1, t.2, lineNumber)

/-- The scan after lines that it accepts. -/
def addAll : LedgerScan → Nat → List LedgerLine → LedgerScan
  | scan, _, [] => scan
  | scan, lineNumber, l :: lines => (scan.add lineNumber l).addAll (lineNumber + 1) lines

theorem keys_started_add (scan : LedgerScan) (n : Nat) (l : LedgerLine) :
    keys (scan.add n l).started = keys scan.started ++ l.startOf.toList := by
  rw [add, keys, List.map_append, List.map_map]
  exact congrArg _ (List.map_id _)

theorem names_add (scan : LedgerScan) (n : Nat) (l : LedgerLine) :
    (scan.add n l).terminal.map (fun t => (t.1, t.2.1))
      = scan.terminal.map (fun t => (t.1, t.2.1)) ++ l.terminalOf.toList := by
  rw [add, List.map_append, List.map_map]
  exact congrArg _ (List.map_id _)

theorem keys_terminal (scan : LedgerScan) :
    keys scan.terminal = (scan.terminal.map fun t => (t.1, t.2.1)).map Prod.fst := by
  rw [keys, List.map_map]
  rfl

theorem keys_terminal_add (scan : LedgerScan) (n : Nat) (l : LedgerLine) :
    keys (scan.add n l).terminal = keys scan.terminal ++ l.endOf.toList := by
  rw [keys_terminal, keys_terminal, names_add, List.map_append, endOf, Option.toList_map]

theorem keys_started_addAll : ∀ (lines : List LedgerLine) (scan : LedgerScan) (n : Nat),
    keys (scan.addAll n lines).started = keys scan.started ++ lines.filterMap startOf := by
  intro lines
  induction lines with
  | nil => intro scan n; rw [addAll, List.filterMap_nil, List.append_nil]
  | cons l lines ih =>
      intro scan n
      rw [addAll, ih, keys_started_add, List.append_assoc, toList_append_filterMap]

theorem names_addAll : ∀ (lines : List LedgerLine) (scan : LedgerScan) (n : Nat),
    (scan.addAll n lines).terminal.map (fun t => (t.1, t.2.1))
      = scan.terminal.map (fun t => (t.1, t.2.1)) ++ lines.filterMap terminalOf := by
  intro lines
  induction lines with
  | nil => intro scan n; rw [addAll, List.filterMap_nil, List.append_nil]
  | cons l lines ih =>
      intro scan n
      rw [addAll, ih, names_add, List.append_assoc, toList_append_filterMap]

theorem keys_terminal_addAll (lines : List LedgerLine) (scan : LedgerScan) (n : Nat) :
    keys (scan.addAll n lines).terminal = keys scan.terminal ++ lines.filterMap endOf := by
  rw [keys_terminal, keys_terminal, names_addAll, List.map_append, List.map_filterMap]
  rfl

end LedgerScan

theorem unless_error_eq_ok {c : Prop} [Decidable c] {e : LedgerError} {scan scan' : LedgerScan} :
    (if c then .error e else .ok scan : Except LedgerError LedgerScan) = .ok scan' ↔
      ¬ c ∧ scan' = scan := by
  by_cases h : c
  · simp [h]
  · simp [h, eq_comm]

/-- **What a line may be.** -/
theorem scanLine_eq_ok {scan scan' : LedgerScan} {n : Nat} {l : LedgerLine} :
    scanLine scan n l = .ok scan' ↔ l.IsEvent ∧ (∀ id, l.startOf = some id → id ∉ keys scan.started) ∧
      (∀ id, l.endOf = some id → id ∉ keys scan.terminal) ∧ scan' = scan.add n l := by
  cases l with
  | notJson => simp [scanLine, IsEvent, startOf, endOf, terminalOf]
  | notObject => simp [scanLine, IsEvent, startOf, endOf, terminalOf]
  | event requestId name =>
      cases requestId with
      | none => simp [scanLine, IsEvent, startOf, endOf, terminalOf]
      | some id =>
          rw [scanLine, IsEvent, endOf, startOf, terminalOf, LedgerScan.add, startOf, terminalOf]
          by_cases hid : id = ""
          · rw [if_pos hid]
            refine ⟨nofun, ?_⟩
            rintro ⟨⟨id', hne, hof⟩, -⟩
            rw [hid] at hof
            exfalso
            rcases hof with hof | hof
            · split at hof
              · exact hne (Option.some.inj hof).symm
              · cases hof
            · split at hof
              · exact hne (Option.some.inj hof).symm
              · cases hof
          · rw [if_neg hid]
            by_cases hstart : name = some "request_started"
            · subst hstart
              simp [hid, unless_error_eq_ok]
            · by_cases hterm : name = some "request_completed" ∨ name = some "request_failed"
              · simp [hstart, hterm, hid, unless_error_eq_ok]
              · simp [hstart, hterm]

/-- **What a file may be.** -/
theorem scanLines_eq_ok {scan' : LedgerScan} : ∀ {lines : List LedgerLine} {scan : LedgerScan} {n : Nat},
    (keys scan.started).Nodup → (keys scan.terminal).Nodup →
    (scanLines scan n lines = .ok scan' ↔ (∀ l ∈ lines, l.IsEvent) ∧
      (keys (scan.addAll n lines).started).Nodup ∧ (keys (scan.addAll n lines).terminal).Nodup ∧
      scan' = scan.addAll n lines) := by
  intro lines
  induction lines with
  | nil =>
      intro scan n hs ht
      simp [scanLines, LedgerScan.addAll, hs, ht, eq_comm]
  | cons l lines ih =>
      intro scan n hs ht
      rw [scanLines, LedgerScan.addAll, List.forall_mem_cons]
      have hkeys : (keys ((scan.add n l).addAll (n + 1) lines).started).Nodup →
          ∀ id, l.startOf = some id → id ∉ keys scan.started := by
        rw [LedgerScan.keys_started_addAll, LedgerScan.keys_started_add]
        exact fun h => (nodup_append_toList hs).mp (List.nodup_append.mp h).1
      have hkeys' : (keys ((scan.add n l).addAll (n + 1) lines).terminal).Nodup →
          ∀ id, l.endOf = some id → id ∉ keys scan.terminal := by
        rw [LedgerScan.keys_terminal_addAll, LedgerScan.keys_terminal_add]
        exact fun h => (nodup_append_toList ht).mp (List.nodup_append.mp h).1
      by_cases hl : l.IsEvent ∧ (∀ id, l.startOf = some id → id ∉ keys scan.started) ∧
          (∀ id, l.endOf = some id → id ∉ keys scan.terminal)
      · have hok : scanLine scan n l = .ok (scan.add n l) :=
          scanLine_eq_ok.mpr ⟨hl.1, hl.2.1, hl.2.2, rfl⟩
        have hs' : (keys (scan.add n l).started).Nodup := by
          rw [LedgerScan.keys_started_add]
          exact (nodup_append_toList hs).mpr hl.2.1
        have ht' : (keys (scan.add n l).terminal).Nodup := by
          rw [LedgerScan.keys_terminal_add]
          exact (nodup_append_toList ht).mpr hl.2.2
        rw [hok]
        dsimp only
        rw [ih hs' ht', and_iff_right hl.1]
      · have herr : ∀ scan'', scanLine scan n l ≠ .ok scan'' := by
          intro scan'' hok
          obtain ⟨h₁, h₂, h₃, -⟩ := scanLine_eq_ok.mp hok
          exact hl ⟨h₁, h₂, h₃⟩
        constructor
        · intro h
          split at h
          · cases h
          · next scan'' hok => exact absurd hok (herr scan'')
        · rintro ⟨⟨hev, -⟩, hn, hn', -⟩
          exact absurd ⟨hev, hkeys hn, hkeys' hn'⟩ hl

/-! ### What the audit accepts -/

theorem mem_sortedDifference {a b : List String} {id : String} :
    id ∈ sortedDifference a b ↔ id ∈ a ∧ id ∉ b := by
  rw [sortedDifference, List.mem_mergeSort, List.mem_filter, decide_eq_true_iff]

theorem nodup_sortedDifference {a : List String} (ha : a.Nodup) (b : List String) :
    (sortedDifference a b).Nodup :=
  (List.mergeSort_perm _ _).nodup_iff.mpr (ha.filter _)

theorem count_filterMap {α : Type} (f : α → Option String) (id : String) (l : List α) :
    (l.filterMap f).count id = l.countP fun x => f x = some id := by
  rw [List.count, List.countP_filterMap]
  refine List.countP_congr ?_
  intro x _
  cases f x with
  | none => simp
  | some y => simp

theorem nodup_filterMap {α : Type} {f : α → Option String} {l : List α} :
    (l.filterMap f).Nodup ↔ ∀ id, l.countP (fun x => f x = some id) ≤ 1 := by
  rw [List.nodup_iff_count_le_one]
  simp only [count_filterMap]

theorem mem_filterMap_iff_countP {α : Type} {f : α → Option String} {l : List α} {id : String} :
    id ∈ l.filterMap f ↔ 0 < l.countP fun x => f x = some id := by
  rw [← count_filterMap, List.count_pos_iff]

/-- The tests of the audit. -/
structure Accepted (lines : List LedgerLine) : Prop where
  isEvent : ∀ l ∈ lines, l.IsEvent
  nodupStarts : (lines.filterMap startOf).Nodup
  nodupEnds : (lines.filterMap endOf).Nodup
  started : ∀ id ∈ lines.filterMap endOf, id ∈ lines.filterMap startOf

theorem accepted_iff_paired {lines : List LedgerLine} : Accepted lines ↔ Paired lines := by
  constructor
  · intro h
    refine { isEvent := h.isEvent, startedOnce := ?_, endedOnce := nodup_filterMap.mp h.nodupEnds }
    rintro id ⟨l, hl, hof⟩
    have hin : id ∈ lines.filterMap startOf := by
      rcases hof with hof | hof
      · exact List.mem_filterMap.mpr ⟨l, hl, hof⟩
      · exact h.started id (List.mem_filterMap.mpr ⟨l, hl, hof⟩)
    have hpos := mem_filterMap_iff_countP.mp hin
    have hle := nodup_filterMap.mp h.nodupStarts id
    omega
  · intro h
    refine { isEvent := h.isEvent, nodupStarts := nodup_filterMap.mpr ?_,
             nodupEnds := nodup_filterMap.mpr h.endedOnce, started := ?_ }
    · intro id
      by_cases hocc : ∃ l ∈ lines, l.startOf = some id ∨ l.endOf = some id
      · exact Nat.le_of_eq (h.startedOnce id hocc)
      · have hzero : lines.countP (fun l => l.startOf = some id) = 0 := by
          refine List.countP_eq_zero.mpr ?_
          intro l hl hof
          exact hocc ⟨l, hl, Or.inl (of_decide_eq_true hof)⟩
        omega
    · intro id hid
      obtain ⟨l, hl, hof⟩ := List.mem_filterMap.mp hid
      have := h.startedOnce id ⟨l, hl, Or.inr hof⟩
      exact mem_filterMap_iff_countP.mpr (by omega)

theorem keys_started_scan (lines : List LedgerLine) (n : Nat) :
    keys (({} : LedgerScan).addAll n lines).started = lines.filterMap startOf := by
  rw [LedgerScan.keys_started_addAll]
  rfl

theorem keys_terminal_scan (lines : List LedgerLine) (n : Nat) :
    keys (({} : LedgerScan).addAll n lines).terminal = lines.filterMap endOf := by
  rw [LedgerScan.keys_terminal_addAll]
  rfl

theorem names_scan (lines : List LedgerLine) (n : Nat) :
    (({} : LedgerScan).addAll n lines).terminal.map (fun t => (t.1, t.2.1))
      = lines.filterMap terminalOf := by
  rw [LedgerScan.names_addAll]
  rfl

/-- The summary of the lines. -/
def summaryOf (path : String) (lines : List LedgerLine) : LedgerSummary where
  path := path
  started := lines.countP fun l => l.startOf.isSome
  completed := lines.countP fun l => l.terminalOf.any fun t => t.2 = "request_completed"
  failed := lines.countP fun l => l.terminalOf.any fun t => t.2 = "request_failed"
  incompleteRequestIds := sortedDifference (lines.filterMap startOf) (lines.filterMap endOf)

theorem countP_terminal (lines : List LedgerLine) (n : Nat) (name : String) :
    (({} : LedgerScan).addAll n lines).terminal.countP (fun t => t.2.1 = name)
      = lines.countP fun l => l.terminalOf.any fun t => t.2 = name := by
  rw [show (fun t : String × String × Nat => decide (t.2.1 = name))
    = (fun t => decide (t.2 = name)) ∘ fun t => (t.1, t.2.1) from rfl, ← List.countP_map, names_scan,
    List.countP_filterMap]
  refine List.countP_congr ?_
  intro l _
  cases l.terminalOf with
  | none => simp
  | some t => simp

theorem length_started (lines : List LedgerLine) (n : Nat) :
    (({} : LedgerScan).addAll n lines).started.length = lines.countP fun l => l.startOf.isSome := by
  have h := congrArg List.length (keys_started_scan lines n)
  rw [keys, List.length_map, List.length_filterMap_eq_countP] at h
  exact h

/-- **The audit accepts what is paired**, and its summary is the summary of the lines. -/
theorem validateLedger_eq_ok {path : String} {lines : List LedgerLine} {s : LedgerSummary} :
    validateLedger path lines = .ok s ↔ Paired lines ∧ s = summaryOf path lines := by
  have hscan := fun scan' => @scanLines_eq_ok scan' lines {} 1 List.nodup_nil List.nodup_nil
  rw [keys_started_scan, keys_terminal_scan] at hscan
  rw [← accepted_iff_paired, validateLedger]
  cases hres : scanLines {} 1 lines with
  | error e =>
      refine ⟨nofun, ?_⟩
      rintro ⟨h, -⟩
      have := (hscan _).mpr ⟨h.isEvent, h.nodupStarts, h.nodupEnds, rfl⟩
      rw [hres] at this
      cases this
  | ok scan =>
      obtain ⟨hev, hstarts, hends, rfl⟩ := (hscan scan).mp hres
      dsimp only
      rw [keys_started_scan, keys_terminal_scan, length_started, countP_terminal, countP_terminal,
        ← summaryOf]
      by_cases horph : sortedDifference (lines.filterMap endOf) (lines.filterMap startOf) = []
      · rw [if_neg (not_not.mpr horph), Except.ok.injEq, eq_comm, and_iff_right]
        refine { isEvent := hev, nodupStarts := hstarts, nodupEnds := hends, started := ?_ }
        intro id hid
        by_contra hno
        have := mem_sortedDifference.mpr ⟨hid, hno⟩
        rw [horph] at this
        cases this
      · rw [if_pos horph]
        refine ⟨nofun, ?_⟩
        rintro ⟨h, -⟩
        obtain ⟨id, hid⟩ := List.exists_mem_of_ne_nil _ horph
        obtain ⟨hid, hno⟩ := mem_sortedDifference.mp hid
        exact absurd (h.started id hid) hno

theorem summarizes_summaryOf {path : String} {lines : List LedgerLine} (h : Paired lines) :
    (summaryOf path lines).Summarizes lines where
  started := rfl
  completed := rfl
  failed := rfl
  nodup := nodup_sortedDifference (accepted_iff_paired.mpr h).nodupStarts _
  incomplete := by
    intro id
    rw [summaryOf, mem_sortedDifference, List.mem_filterMap, List.mem_filterMap]

/-- What the audit should do with a file. -/
def AuditsExactly (path : String) (lines : List LedgerLine) : Prop :=
  ((∃ s, validateLedger path lines = .ok s) ↔ WellFormed lines) ∧
    ∀ s, validateLedger path lines = .ok s → s.Summarizes lines

theorem auditsExactly_iff {path : String} {lines : List LedgerLine} :
    AuditsExactly path lines ↔ (Paired lines → StartsFirst lines) := by
  have hok : (∃ s, validateLedger path lines = .ok s) ↔ Paired lines := by
    simp only [validateLedger_eq_ok, exists_and_left, exists_eq, and_true]
  rw [AuditsExactly, hok]
  constructor
  · rintro ⟨h, -⟩ hp
    exact (h.mp hp).startsFirst
  · intro h
    refine ⟨⟨fun hp => ⟨hp, h hp⟩, WellFormed.toPaired⟩, ?_⟩
    intro s hs
    obtain ⟨hp, rfl⟩ := validateLedger_eq_ok.mp hs
    exact summarizes_summaryOf hp

/-! ### What recorders write -/

/-- What the audit reads of an event. -/
def LedgerEvent.line (e : LedgerEvent) : LedgerLine :=
  .event (some e.requestId) (some e.name)

/-- Any number of recorders: the file they append to and the handles they have given out. -/
structure Recorders where
  ledger : List LedgerEvent := []
  pending : List PendingRequest := []

inductive RecorderCall
  | start (disk : Disk) (requestId : String) (modelInput sampling metadata evaluation : Json)
  | complete (i : Nat) (disk : Disk) (output metrics metadata : Json)
  | fail (i : Nat) (disk : Disk) (error : Raised) (metadata : Json)

namespace Recorders

/-- Put a handle back after its use. -/
def finished (s : Recorders) (i : Nat)
    (result : Except Raised Unit × PendingRequest × List LedgerEvent) : Recorders where
  ledger := result.2.2
  pending := s.pending.set i result.2.1

/-- A call to one of the recorders.  The ids of `uuid4` are new. -/
def call (s : Recorders) : RecorderCall → Option Recorders
  | .start disk requestId modelInput sampling metadata evaluation =>
      if requestId = "" ∨ requestId ∈ s.pending.map PendingRequest.requestId then none
      else
        match start disk s.ledger requestId modelInput sampling metadata evaluation with
        | (.error _, ledger) => some { s with ledger := ledger }
        | (.ok p, ledger) => some { ledger := ledger, pending := s.pending ++ [p] }
  | .complete i disk output metrics metadata =>
      s.pending[i]?.map fun p => s.finished i (p.complete disk s.ledger output metrics metadata)
  | .fail i disk error metadata =>
      s.pending[i]?.map fun p => s.finished i (p.fail disk s.ledger error metadata)

def run : Recorders → List RecorderCall → Option Recorders
  | s, [] => some s
  | s, c :: calls => match s.call c with
      | none => none
      | some s => s.run calls

end Recorders

theorem startOf_line (e : LedgerEvent) :
    e.line.startOf = if e.isTerminal then none else some e.requestId := by
  cases e with
  | requestStarted id _ _ _ _ => rfl
  | requestCompleted id _ _ _ => rfl
  | requestFailed id _ _ => rfl

theorem endOf_line (e : LedgerEvent) :
    e.line.endOf = if e.isTerminal then some e.requestId else none := by
  cases e with
  | requestStarted id _ _ _ _ => rfl
  | requestCompleted id _ _ _ => rfl
  | requestFailed id _ _ => rfl

/-- One more line that names a new id. -/
theorem countP_concat {f : LedgerLine → Option String} {lines : List LedgerLine} {l : LedgerLine}
    {id : String} (hl : f l = some id) (hnew : ∀ l' ∈ lines, f l' ≠ some id) (id' : String) :
    (lines ++ [l]).countP (fun x => f x = some id')
      = if id' = id then 1 else lines.countP fun x => f x = some id' := by
  rw [List.countP_append, List.countP_singleton, hl]
  by_cases hsame : id' = id
  · subst hsame
    have hzero : lines.countP (fun x => f x = some id') = 0 := by
      refine List.countP_eq_zero.mpr fun l' hl' hof => ?_
      exact hnew l' hl' (of_decide_eq_true hof)
    rw [hzero, if_pos (decide_eq_true rfl), if_pos rfl]
  · have hne : some id ≠ some id' := fun heq => hsame (Option.some.inj heq).symm
    rw [if_neg (by simpa using hne), if_neg hsame, Nat.add_zero]

/-- A start of a request that is not in the ledger. -/
theorem WellFormed.concat_start {lines : List LedgerLine} (h : WellFormed lines) {l : LedgerLine}
    {id : String} (hid : id ≠ "") (hl : l.startOf = some id) (hend : l.endOf = none)
    (hnew : ∀ l' ∈ lines, l'.startOf ≠ some id ∧ l'.endOf ≠ some id) : WellFormed (lines ++ [l]) := by
  refine { isEvent := ?_, startedOnce := ?_, endedOnce := ?_, startsFirst := ?_ }
  · intro l' hl'
    rcases List.mem_append.mp hl' with hl' | hl'
    · exact h.isEvent l' hl'
    · rw [List.mem_singleton.mp hl']
      exact ⟨id, hid, Or.inl hl⟩
  · intro id' hocc
    rw [countP_concat hl fun l' hl' => (hnew l' hl').1]
    split
    · rfl
    · next hne =>
      refine h.startedOnce id' ?_
      obtain ⟨l', hl', hof⟩ := hocc
      rcases List.mem_append.mp hl' with hl' | hl'
      · exact ⟨l', hl', hof⟩
      · rw [List.mem_singleton.mp hl', hl, hend] at hof
        rcases hof with hof | hof
        · exact absurd (Option.some.inj hof).symm hne
        · cases hof
  · intro id'
    rw [List.countP_append, List.countP_singleton, hend, if_neg (by simp)]
    exact h.endedOnce id'
  · refine List.pairwise_append.mpr ⟨h.startsFirst, List.pairwise_singleton _ _, ?_⟩
    intro l' hl' l'' hl'' id' hof hof'
    rw [List.mem_singleton.mp hl'', hl] at hof'
    obtain rfl := Option.some.inj hof'
    exact (hnew l' hl').2 hof

/-- The end of a request that has been started and not ended. -/
theorem WellFormed.concat_end {lines : List LedgerLine} (h : WellFormed lines) {l : LedgerLine}
    {id : String} (hid : id ≠ "") (hl : l.endOf = some id) (hstart : l.startOf = none)
    (hstarted : ∃ l' ∈ lines, l'.startOf = some id) (hopen : ∀ l' ∈ lines, l'.endOf ≠ some id) :
    WellFormed (lines ++ [l]) := by
  refine { isEvent := ?_, startedOnce := ?_, endedOnce := ?_, startsFirst := ?_ }
  · intro l' hl'
    rcases List.mem_append.mp hl' with hl' | hl'
    · exact h.isEvent l' hl'
    · rw [List.mem_singleton.mp hl']
      exact ⟨id, hid, Or.inr hl⟩
  · intro id' hocc
    rw [List.countP_append, List.countP_singleton, hstart, if_neg (by simp), Nat.add_zero]
    refine h.startedOnce id' ?_
    obtain ⟨l', hl', hof⟩ := hocc
    rcases List.mem_append.mp hl' with hl' | hl'
    · exact ⟨l', hl', hof⟩
    · rw [List.mem_singleton.mp hl', hl, hstart] at hof
      rcases hof with hof | hof
      · cases hof
      · obtain rfl := Option.some.inj hof
        obtain ⟨l'', hl'', hof''⟩ := hstarted
        exact ⟨l'', hl'', Or.inl hof''⟩
  · intro id'
    rw [countP_concat hl hopen]
    split
    · exact Nat.le_refl 1
    · exact h.endedOnce id'
  · refine List.pairwise_append.mpr ⟨h.startsFirst, List.pairwise_singleton _ _, ?_⟩
    intro l' _ l'' hl'' id' _ hof'
    rw [List.mem_singleton.mp hl'', hstart] at hof'
    cases hof'

namespace Recorders

/-- What the recorders keep: every handle has its start in the file, and an unused handle no end. -/
structure Ok (s : Recorders) : Prop where
  nodup : (s.pending.map PendingRequest.requestId).Nodup
  nonempty : ∀ p ∈ s.pending, p.requestId ≠ ""
  known : ∀ e ∈ s.ledger, e.requestId ∈ s.pending.map PendingRequest.requestId
  started : ∀ p ∈ s.pending, ∃ e ∈ s.ledger, e.isTerminal = false ∧ e.requestId = p.requestId
  unfinished : ∀ p ∈ s.pending, p.finished = false →
    ∀ e ∈ s.ledger, e.isTerminal = true → e.requestId ≠ p.requestId
  wellFormed : WellFormed (s.ledger.map LedgerEvent.line)

theorem ok_empty : Ok {} where
  nodup := List.nodup_nil
  nonempty := nofun
  known := nofun
  started := nofun
  unfinished := nofun
  wellFormed := { isEvent := nofun, startedOnce := nofun, endedOnce := fun _ => Nat.zero_le 1,
                  startsFirst := List.Pairwise.nil }

/-- A handle is used up, and its event may have been written. -/
theorem Ok.finished {s : Recorders} (h : s.Ok) {i : Nat} {p : PendingRequest}
    (hp : s.pending[i]? = some p) {disk : Disk} {event : LedgerEvent}
    (hid : event.requestId = p.requestId) (hterm : event.isTerminal = true) :
    (s.finished i (p.finish disk s.ledger event)).Ok := by
  obtain ⟨hhandle, hledger⟩ := PendingRequest.finish_cases disk p s.ledger event
  obtain ⟨hi, rfl⟩ := List.getElem?_eq_some_iff.mp hp
  have hmem := List.getElem_mem hi
  have hids : (s.pending.set i { s.pending[i] with finished := true }).map PendingRequest.requestId
      = s.pending.map PendingRequest.requestId := by
    rw [List.map_set]
    refine Eq.trans ?_ (List.set_getElem_self (i := i) (by rwa [List.length_map]))
    rw [List.getElem_map]
  have hold : ∀ q ∈ s.pending.set i { s.pending[i] with finished := true },
      ∃ q' ∈ s.pending, q'.requestId = q.requestId := by
    intro q hq
    rcases List.mem_or_eq_of_mem_set hq with hq | rfl
    · exact ⟨q, hq, rfl⟩
    · exact ⟨_, hmem, rfl⟩
  have hother : ∀ q ∈ s.pending.set i { s.pending[i] with finished := true }, q.finished = false →
      q ∈ s.pending ∧ q.requestId ≠ s.pending[i].requestId := by
    intro q hq hopen
    have hne : q ≠ { s.pending[i] with finished := true } := by
      rintro rfl
      cases hopen
    refine ⟨(List.mem_or_eq_of_mem_set hq).resolve_right hne, fun hsame => hne ?_⟩
    exact List.inj_on_of_nodup_map (hids ▸ h.nodup) hq (List.mem_set hi _) hsame
  rw [Recorders.finished, hhandle]
  rcases hledger with hledger | ⟨hopen, hledger⟩
  · rw [hledger]
    refine { nodup := ?_, nonempty := ?_, known := ?_, started := ?_, unfinished := ?_,
             wellFormed := h.wellFormed }
    · rw [hids]
      exact h.nodup
    · intro q hq
      obtain ⟨q', hq', hsame⟩ := hold q hq
      exact hsame ▸ h.nonempty q' hq'
    · rw [hids]
      exact h.known
    · intro q hq
      obtain ⟨q', hq', hsame⟩ := hold q hq
      exact hsame ▸ h.started q' hq'
    · intro q hq hqopen
      exact h.unfinished q (hother q hq hqopen).1 hqopen
  · rw [hledger]
    refine { nodup := ?_, nonempty := ?_, known := ?_, started := ?_, unfinished := ?_,
             wellFormed := ?_ }
    · rw [hids]
      exact h.nodup
    · intro q hq
      obtain ⟨q', hq', hsame⟩ := hold q hq
      exact hsame ▸ h.nonempty q' hq'
    · rw [hids]
      intro e he
      rcases List.mem_append.mp he with he | he
      · exact h.known e he
      · rw [List.mem_singleton.mp he, hid]
        exact List.mem_map_of_mem hmem
    · intro q hq
      obtain ⟨q', hq', hsame⟩ := hold q hq
      obtain ⟨e, he, hstart, heid⟩ := h.started q' hq'
      exact ⟨e, List.mem_append_left _ he, hstart, heid.trans hsame⟩
    · intro q hq hqopen e he heterm
      obtain ⟨hq', hne⟩ := hother q hq hqopen
      rcases List.mem_append.mp he with he | he
      · exact h.unfinished q hq' hqopen e he heterm
      · rw [List.mem_singleton.mp he, hid]
        exact hne.symm
    · rw [List.map_append]
      refine h.wellFormed.concat_end (h.nonempty _ hmem) ?_ ?_ ?_ ?_
      · rw [endOf_line, hterm, hid]
        rfl
      · rw [startOf_line, hterm]
        rfl
      · obtain ⟨e, he, hstart, heid⟩ := h.started _ hmem
        refine ⟨e.line, List.mem_map_of_mem he, ?_⟩
        rw [startOf_line, hstart, heid]
        rfl
      · intro l hl
        obtain ⟨e, he, rfl⟩ := List.mem_map.mp hl
        rw [endOf_line]
        cases heterm : e.isTerminal with
        | false => exact nofun
        | true => exact fun heq => h.unfinished _ hmem hopen e he heterm (Option.some.inj heq)

theorem Ok.start {s : Recorders} (h : s.Ok) {event : LedgerEvent} (hid : event.requestId ≠ "")
    (hnew : event.requestId ∉ s.pending.map PendingRequest.requestId)
    (hstart : event.isTerminal = false) :
    Ok { ledger := s.ledger ++ [event]
         pending := s.pending ++ [{ requestId := event.requestId }] } := by
  refine { nodup := ?_, nonempty := ?_, known := ?_, started := ?_, unfinished := ?_,
           wellFormed := ?_ }
  · rw [List.map_append, List.nodup_append]
    refine ⟨h.nodup, List.nodup_singleton _, ?_⟩
    rintro x hx y hy rfl
    rw [List.mem_singleton.mp hy] at hx
    exact hnew hx
  · intro p hp
    rcases List.mem_append.mp hp with hp | hp
    · exact h.nonempty p hp
    · rw [List.mem_singleton.mp hp]
      exact hid
  · intro e he
    rw [List.map_append]
    rcases List.mem_append.mp he with he | he
    · exact List.mem_append_left _ (h.known e he)
    · rw [List.mem_singleton.mp he]
      exact List.mem_append_right _ List.mem_cons_self
  · intro p hp
    rcases List.mem_append.mp hp with hp | hp
    · obtain ⟨e, he, hs, heid⟩ := h.started p hp
      exact ⟨e, List.mem_append_left _ he, hs, heid⟩
    · rw [List.mem_singleton.mp hp]
      exact ⟨event, List.mem_append_right _ List.mem_cons_self, hstart, rfl⟩
  · intro p hp hopen e he hterm
    rcases List.mem_append.mp he with he | he
    · rcases List.mem_append.mp hp with hp | hp
      · exact h.unfinished p hp hopen e he hterm
      · rw [List.mem_singleton.mp hp]
        intro heq
        have hin := h.known e he
        rw [heq] at hin
        exact hnew hin
    · rw [List.mem_singleton.mp he, hstart] at hterm
      cases hterm
  · rw [List.map_append]
    refine h.wellFormed.concat_start hid ?_ ?_ ?_
    · rw [startOf_line, hstart]
      rfl
    · rw [endOf_line, hstart]
      rfl
    · intro l hl
      obtain ⟨e, he, rfl⟩ := List.mem_map.mp hl
      have hne : e.requestId ≠ event.requestId := fun heq => hnew (heq ▸ h.known e he)
      rw [startOf_line, endOf_line]
      cases e.isTerminal with
      | false => exact ⟨fun heq => hne (Option.some.inj heq), nofun⟩
      | true => exact ⟨nofun, fun heq => hne (Option.some.inj heq)⟩

/-- **One call.** -/
theorem Ok.call {s s' : Recorders} (h : s.Ok) {c : RecorderCall} (hc : s.call c = some s') : s'.Ok := by
  cases c with
  | start disk requestId modelInput sampling metadata evaluation =>
      rw [Recorders.call] at hc
      split at hc
      · cases hc
      · next hnew =>
        rw [not_or] at hnew
        by_cases hw : Writable disk (.requestStarted requestId modelInput (sampling.orElse (.obj []))
            (metadata.orElse (.obj [])) (evaluation.orElse (.obj [])))
        · rw [Observability.start, append_of_writable hw] at hc
          obtain rfl := Option.some.inj hc
          exact h.start hnew.1 hnew.2 rfl
        · obtain ⟨e, he⟩ := append_of_not_writable hw s.ledger
          rw [Observability.start, he] at hc
          obtain rfl := Option.some.inj hc
          exact h
  | complete i disk output metrics metadata =>
      obtain ⟨p, hp, rfl⟩ := Option.map_eq_some_iff.mp hc
      exact h.finished hp rfl rfl
  | fail i disk error metadata =>
      obtain ⟨p, hp, rfl⟩ := Option.map_eq_some_iff.mp hc
      exact h.finished hp rfl rfl

theorem Ok.run {calls : List RecorderCall} : ∀ {s s' : Recorders}, s.Ok → s.run calls = some s' →
    s'.Ok := by
  induction calls with
  | nil =>
      intro s s' h hrun
      obtain rfl := Option.some.inj hrun
      exact h
  | cons c calls ih =>
      intro s s' h hrun
      rw [Recorders.run] at hrun
      split at hrun
      · cases hrun
      · next s₁ hs₁ => exact ih (h.call hs₁) hrun

end Recorders

/-- **When the audit is right.**  It is right about a file unless the file has all that the audit tests and an
end before its start; and it is right about whatever any number of recorders have written. -/
theorem validateLedger_audits (path : String) :
    (∀ lines, AuditsExactly path lines ↔ (Paired lines → StartsFirst lines)) ∧
      ∀ calls s, ({} : Recorders).run calls = some s →
        WellFormed (s.ledger.map LedgerEvent.line) ∧
          AuditsExactly path (s.ledger.map LedgerEvent.line) := by
  refine ⟨fun lines => auditsExactly_iff, ?_⟩
  intro calls s hrun
  have h := (Recorders.ok_empty.run hrun).wellFormed
  exact ⟨h, auditsExactly_iff.mpr fun _ => h.startsFirst⟩

/-- Two recorders on one file; the second request is never ended. -/
theorem two_recorders :
    let calls : List RecorderCall := [
      .start (fun _ => .ok ()) "a" .null .null .null .null,
      .start (fun _ => .ok ()) "b" .null .null .null .null,
      .complete 0 (fun _ => .ok ()) .null .null .null]
    ∃ s, ({} : Recorders).run calls = some s ∧
      AuditsExactly "ledger" (s.ledger.map LedgerEvent.line) := by
  intro calls
  exact ⟨_, rfl, ((validateLedger_audits "ledger").2 calls _ rfl).2⟩

/-- The end of a request, then its start. -/
def reversedLedger : List LedgerLine :=
  [.event (some "r") (some "request_failed"), .event (some "r") (some "request_started")]

/-- **The audit accepts an end before its start.** -/
theorem reversedLedger_accepted :
    validateLedger "ledger" reversedLedger = .ok ⟨"ledger", 1, 0, 1, []⟩ ∧
      ¬ WellFormed reversedLedger ∧ ¬ AuditsExactly "ledger" reversedLedger := by
  have hok : validateLedger "ledger" reversedLedger = .ok ⟨"ledger", 1, 0, 1, []⟩ := by
    decide +kernel
  have hno : ¬ WellFormed reversedLedger := by
    intro h
    have hpair := (List.pairwise_cons.mp h.startsFirst).1 _ List.mem_cons_self "r" rfl
    exact hpair rfl
  exact ⟨hok, hno, fun h => hno (h.1.mp ⟨_, hok⟩)⟩

end CacheSelect.Observability
