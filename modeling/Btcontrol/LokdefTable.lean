import Btcontrol.LokdefReader
import Btcontrol.Deliverable

/-! The table of conf/lokdef.csv as the server goes through it: up to the first address 0, and to the first record
of an address. The reader checks neither. -/
namespace Btcontrol

open ClientThread

def isRecord (line : Str) : Bool := line.head? != some 35 && separators line != 0

def recordLines (lokdefCsv : Str) : List Str := (linesOf lokdefCsv).filter isRecord

/-- Every line is found by its address, and the loops over the table go through all the records: the status for the
clients, their loco list, and the full stop. -/
structure Reachable (lines : List Str) (lokdef : List Lokdef) : Prop where
  found : ∀ (k : Nat) (line : Str), lines[k]? = some line → getAddrIndex lokdef (atoi line) = .ok k
  status : ∀ lastStatus : List LastStatus, lines.length ≤ lastStatus.length →
    ∃ after, setLokStatus lokdef lastStatus (.struct 8 []) = .ok (statusReply
      ((((lokdef.take lines.length).zip lastStatus).filter (fun slot => Differs slot.1 slot.2)).map
        (fun slot => statusEntry slot.1)), after)
  listed : lines ≠ [] →
    locosLoop lokdef 0 (.struct 23 []) = .ok (infoReply 23 ((lokdef.take lines.length).map locoEntry))
  stopped : ∀ srcpd clientID stopAll (g : Globals SRCP), g.lokdef = lokdef →
    SRCP.fullstop srcpd clientID stopAll g =
      SRCP.fullstopLoop srcpd clientID stopAll (List.range lines.length) g

/-! ### The addresses of a table -/

/-- The record of a line has its address. -/
theorem readLine_isRecord {lineNo : Nat} {line : Str} {record : Option Lokdef}
    (read : readLine lineNo line = .ok record) :
    record.toList.map Lokdef.addr = if isRecord line then [atoi line] else [] := by
  rcases readLine_cases read with ⟨rfl,skipped⟩ | ⟨_,_,_,_,_,l,code,flags,_,_,_,_,_,rfl,_,addr,_,_⟩
  · have none : isRecord line = false := by
      rcases skipped with comment | flags
      · simp [isRecord,comment]
      · simp [isRecord,separators_last flags]
    rw [none]
    rfl
  · have kept : isRecord line = true := by simp [isRecord,code,separators_next flags]
    simp [kept,addr]

theorem readLines_addrs {lineNo : Nat} {lines : List Str} {lokdef : List Lokdef}
    (read : readLines lineNo lines = .ok lokdef) : lokdef.map Lokdef.addr =
      ((lines.map (fun line => line.takeWhile (· ≠ 0))).filter isRecord).map atoi ++ [0] := by
  induction lines generalizing lineNo lokdef with
  | nil =>
    cases read
    rfl
  | cons line rest ih =>
    obtain ⟨record,others,first,more,rfl⟩ := readLines_cons read
    rw [List.map_append,ih more,readLine_isRecord first,List.map_cons,List.filter_cons]
    split <;> simp

/-- The column of the addresses: one for each line, and the 0 at the end. -/
theorem readLokdef_addrs {lokdefCsv : Str} {lokdef : List Lokdef} (read : readLokdef lokdefCsv = .ok lokdef) :
    lokdef.map Lokdef.addr = (recordLines lokdefCsv).map atoi ++ [0] :=
  readLines_addrs (readLokdef_lines read)

section Scans

variable {records : List Lokdef} {last : Lokdef}

theorem nLokdef_records (used : ∀ l ∈ records, l.addr ≠ 0) (stop : last.addr = 0) :
    nLokdef (records ++ [last]) = records.length := by
  induction records with
  | nil => simp [nLokdef,stop]
  | cons l rest ih =>
    obtain ⟨here,later⟩ := List.forall_mem_cons.mp used
    simp [nLokdef,here,ih later]

theorem locos_records (used : ∀ l ∈ records, l.addr ≠ 0) (stop : last.addr = 0) :
    locos (records ++ [last]) = records := by
  induction records with
  | nil => exact locos_end stop []
  | cons l rest ih =>
    obtain ⟨here,later⟩ := List.forall_mem_cons.mp used
    rw [List.cons_append,locos_cons here,ih later]

theorem changedLocos_records (used : ∀ l ∈ records, l.addr ≠ 0) (stop : last.addr = 0) (lastStatus : List LastStatus)
    (slots : records.length ≤ lastStatus.length) : changedLocos (records ++ [last]) lastStatus =
      ((records.zip lastStatus).filter (fun slot => Differs slot.1 slot.2)).map Prod.fst := by
  induction records generalizing lastStatus with
  | nil => cases lastStatus <;> simp [changedLocos,stop]
  | cons l rest ih =>
    obtain ⟨here,later⟩ := List.forall_mem_cons.mp used
    cases lastStatus with
    | nil => simp at slots
    | cons status others =>
      have more := ih later others (Nat.le_of_succ_le_succ slots)
      simp only [List.cons_append,changedLocos,here,↓reduceIte,List.zip_cons_cons,List.filter_cons,more]
      by_cases differs : Differs l status
      · simp [differs]
      · simp [differs]

/-- With addresses that differ, a lookup lands on the record itself. -/
theorem getAddrIndex_records (used : ∀ l ∈ records, l.addr ≠ 0) (distinct : (records.map Lokdef.addr).Nodup)
    {k : Nat} {l : Lokdef} (place : records[k]? = some l) : getAddrIndex (records ++ [last]) l.addr = .ok k := by
  induction records generalizing k with
  | nil => cases place
  | cons first rest ih =>
    obtain ⟨here,later⟩ := List.forall_mem_cons.mp used
    rw [List.map_cons,List.nodup_cons] at distinct
    cases k with
    | zero =>
      cases place
      simp [getAddrIndex,here]
    | succ k =>
      rw [List.getElem?_cons_succ] at place
      have other : first.addr ≠ l.addr := by
        intro same
        exact distinct.1 (same ▸ List.mem_map_of_mem (List.mem_of_getElem? place))
      simp [getAddrIndex,here,other,ih later distinct.2 place,Except.map]

end Scans

theorem Reachable.distinct {lines : List Str} {lokdef : List Lokdef} (reach : Reachable lines lokdef) :
    (∀ line ∈ lines, atoi line ≠ 0) ∧ (lines.map atoi).Nodup := by
  constructor
  · intro line member
    obtain ⟨k,place⟩ := List.mem_iff_getElem?.mp member
    exact (getAddrIndex_located (reach.found k line place)).1
  · apply List.nodup_iff_getElem?_ne_getElem?.mpr
    intro i j before bound same
    rw [List.length_map] at bound
    rw [List.getElem?_map,List.getElem?_map,List.getElem?_eq_getElem (before.trans bound),
      List.getElem?_eq_getElem bound,Option.map_some,Option.map_some,Option.some.injEq] at same
    -- two lines of one address would be found at one place
    have here := reach.found i _ (List.getElem?_eq_getElem (before.trans bound))
    have there := reach.found j _ (List.getElem?_eq_getElem bound)
    rw [same,there] at here
    cases here
    omega

theorem reachable_records {lines : List Str} {records : List Lokdef} {last : Lokdef} (stop : last.addr = 0)
    (addrs : records.map Lokdef.addr = lines.map atoi) (used : ∀ line ∈ lines, atoi line ≠ 0)
    (distinct : (lines.map atoi).Nodup) : Reachable lines (records ++ [last]) := by
  have count : lines.length = records.length := by
    have lengths := congrArg List.length addrs
    rw [List.length_map,List.length_map] at lengths
    exact lengths.symm
  have nonzero (l : Lokdef) (member : l ∈ records) : l.addr ≠ 0 := by
    have listed : l.addr ∈ lines.map atoi := addrs ▸ List.mem_map_of_mem member
    obtain ⟨line,origin,addr⟩ := List.mem_map.mp listed
    exact addr ▸ used line origin
  constructor
  · intro k line place
    have cell : (records.map Lokdef.addr)[k]? = some (atoi line) := by
      rw [addrs,List.getElem?_map,place,Option.map_some]
    rw [List.getElem?_map,Option.map_eq_some_iff] at cell
    obtain ⟨l,record,addr⟩ := cell
    rw [← addr]
    exact getAddrIndex_records nonzero (addrs ▸ distinct) record
  · intro lastStatus slots
    rw [count] at slots
    refine ⟨nextStatus (records ++ [last]) lastStatus,?_⟩
    rw [setLokStatus_reply,changedLocos_records nonzero stop lastStatus slots,count,List.take_left,List.map_map]
    rfl
  · intro some
    have listed : records ≠ [] := by
      intro none
      rw [none] at count
      exact some (List.length_eq_zero_iff.mp count)
    rw [locosLoop_start,locos_records nonzero stop,if_neg listed,count,List.take_left]
  · intro srcpd clientID stopAll g table
    have length := nLokdef_records nonzero stop
    rw [← table] at length
    rw [count,← length]
    rfl

/-- A table that is read is reachable iff the addresses of its lines are not 0 and differ. The server changes no
address, so this holds of the table as it is at any time. -/
theorem readLokdef_reachable {lokdefCsv : Str} {lokdef : List Lokdef} (read : readLokdef lokdefCsv = .ok lokdef) :
    (∀ now : List Lokdef, now.map Lokdef.addr = lokdef.map Lokdef.addr → Reachable (recordLines lokdefCsv) now) ↔
      (∀ line ∈ recordLines lokdefCsv, atoi line ≠ 0) ∧ ((recordLines lokdefCsv).map atoi).Nodup := by
  constructor
  · intro all
    exact (all lokdef rfl).distinct
  · rintro ⟨used,distinct⟩ now same
    rw [readLokdef_addrs read,List.map_eq_append_iff] at same
    obtain ⟨records,ending,rfl,addrs,zero⟩ := same
    obtain ⟨last,rfl,stop⟩ := List.map_eq_singleton_iff.mp zero
    exact reachable_records stop addrs used distinct

/-- The two locos of the file are reachable. -/
theorem readLokdef_reachable_two : Reachable (recordLines twoLocosCsv) twoLocos :=
  (readLokdef_reachable readLokdef_twoLocos).mpr (by decide +kernel) twoLocos rfl

/-- Behind a header line no loco is found, and of two lines with one address only the first. -/
theorem readLokdef_hidden :
    (∃ lokdef, readLokdef (str "addr,decoder,name,img,nfunc\n3,F_DEFAULT,lok3,,0\n") = .ok lokdef ∧
      ¬ Reachable (recordLines (str "addr,decoder,name,img,nfunc\n3,F_DEFAULT,lok3,,0\n")) lokdef) ∧
    ∃ lokdef, readLokdef (str "3,F_DEFAULT,a,,0\n3,F_DEFAULT,b,,0\n") = .ok lokdef ∧
      ¬ Reachable (recordLines (str "3,F_DEFAULT,a,,0\n3,F_DEFAULT,b,,0\n")) lokdef := by
  constructor
  · refine ⟨_,rfl,fun reach => ?_⟩
    have found := reach.found 1 (str "3,F_DEFAULT,lok3,,0") rfl
    cases found
  · refine ⟨_,rfl,fun reach => ?_⟩
    have found := reach.found 1 (str "3,F_DEFAULT,b,,0") rfl
    cases found

end Btcontrol
