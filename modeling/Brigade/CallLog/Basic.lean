/-! Call logs: what interpreters that record their calls write down. -/

namespace Brigade

/-- A log, the newest entry first. -/
structure CallLog where
  newest : List String
  deriving DecidableEq

namespace CallLog

def empty : CallLog := ⟨[]⟩

def record (log : CallLog) (entry : String) : CallLog := ⟨entry :: log.newest⟩

def entries (log : CallLog) : List String := log.newest.reverse

def size (log : CallLog) : Nat := log.newest.length

def isEmpty (log : CallLog) : Bool := log.newest.isEmpty

/-- The entries after the first `count`. -/
def entriesAfter (log : CallLog) (count : Nat) : List String := log.entries.drop count

@[simp] theorem entries_empty : empty.entries = [] := rfl

@[simp] theorem entries_record (log : CallLog) (entry : String) :
    (log.record entry).entries = log.entries ++ [entry] := by simp [entries, record]

@[simp] theorem length_entries (log : CallLog) : log.entries.length = log.size := by
  simp [entries, size]

theorem isEmpty_iff (log : CallLog) : log.isEmpty = true ↔ log.entries = [] := by
  simp [isEmpty, entries]

end CallLog

end Brigade
