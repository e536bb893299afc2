import MiniDB.Log.LogFile

/-!
# What is left of a log file

When the process dies, the file has the log up to some byte, which may be inside an entry.
The bytes that are left determine what was logged of the entries that are complete in them,
in order, whatever else was written.
-/

namespace MiniDB.Log

open Foundation

/-- The log file of these writes, cut off somewhere. -/
def LeftOf (text : ByteString) (writes : List LogWrite) : Prop :=
  ∃ whole ∈ logFileOf writes, text <+: whole

/-- What was logged of the entries that are complete in what is left. -/
def completeEntries (text : ByteString) (writes : List LogWrite) : List LoggedEntry :=
  (complete LogEntry.line text.length (entriesOf writes)).map LogEntry.logged

theorem leftOf_iff (text : ByteString) (writes : List LogWrite) :
    LeftOf text writes ↔ text <+: (entriesOf writes).flatMap LogEntry.line := by
  rw [LeftOf, logFileOf_eq]
  constructor
  · rintro ⟨whole, isWhole, left⟩
    obtain rfl := Option.some.inj isWhole
    exact left
  · exact fun left => ⟨_, rfl, left⟩

theorem line_ne_nil (entry : LogEntry) : entry.line ≠ [] :=
  List.append_ne_nil_of_right_ne_nil _ (List.cons_ne_nil _ _)

/-- The same bytes are left of two logs only if the same entries are complete in them. -/
theorem completeEntries_eq (first second : List LogWrite) (text : ByteString)
    (firstSeparable : ∀ entry ∈ entriesOf first, entry.Separable)
    (secondSeparable : ∀ entry ∈ entriesOf second, entry.Separable)
    (leftOfFirst : LeftOf text first) (leftOfSecond : LeftOf text second) :
    completeEntries text first = completeEntries text second :=
  line_selfDelimiting.map_complete_eq line_ne_nil firstSeparable secondSeparable
    ((leftOf_iff text first).mp leftOfFirst) ((leftOf_iff text second).mp leftOfSecond)

/-- What was written when the file was last flushed is complete in what is left. -/
theorem flushed_prefix_completeEntries (first second : List LogWrite) (text : ByteString)
    (firstSeparable : ∀ entry ∈ entriesOf first, entry.Separable)
    (secondSeparable : ∀ entry ∈ entriesOf second, entry.Separable)
    (leftOfSecond : LeftOf text second) {flushed : ByteString} (isFlushed : flushed ∈ logFileOf first)
    (kept : flushed <+: text) :
    (entriesOf first).map LogEntry.logged <+: completeEntries text second := by
  rw [logFileOf_eq] at isFlushed
  obtain rfl := Option.some.inj isFlushed
  rw [leftOf_iff] at leftOfSecond
  have same := completeEntries_eq first second _ firstSeparable secondSeparable
    ((leftOf_iff _ first).mpr List.prefix_rfl) ((leftOf_iff _ second).mpr (kept.trans leftOfSecond))
  rw [completeEntries, complete_flatMap] at same
  rw [same]
  exact (complete_mono LogEntry.line kept.length_le (entriesOf second)).map LogEntry.logged

/-- The bytes that are left of a log determine the entries that are complete in them, which
are the first ones that were written, and all that were written before the last flush. -/
theorem torn_log_determines (writes : List LogWrite) (text : ByteString)
    (separable : ∀ entry ∈ entriesOf writes, entry.Separable) (left : LeftOf text writes) :
    completeEntries text writes <+: (entriesOf writes).map LogEntry.logged ∧
      ∀ other : List LogWrite, (∀ entry ∈ entriesOf other, entry.Separable) →
        (LeftOf text other → completeEntries text other = completeEntries text writes) ∧
        ∀ flushed ∈ logFileOf other, flushed <+: text →
          (entriesOf other).map LogEntry.logged <+: completeEntries text writes := by
  refine ⟨?_, fun other otherSeparable => ⟨fun leftOfOther => ?_, fun flushed isFlushed kept => ?_⟩⟩
  · exact (complete_starts LogEntry.line text.length (entriesOf writes)).map LogEntry.logged
  · exact completeEntries_eq other writes text otherSeparable separable leftOfOther left
  · exact flushed_prefix_completeEntries other writes text otherSeparable separable left isFlushed
      kept

/-- Of a commit and a migration, cut off inside the migration, the commit is left. -/
theorem torn_log_determines_commit :
    let writes : List LogWrite :=
      [.flush [commitRecord], .logMigration (oneRowMigration (ascii "t") (ascii "a"))]
    let text : ByteString := commitRecord.entry ++ [newline] ++ ascii "MIGR"
    [(LogEntry.record commitRecord).logged] <+: completeEntries text writes := by
  have separable : ∀ entry ∈ entriesOf
      [.flush [commitRecord], .logMigration (oneRowMigration (ascii "t") (ascii "a"))],
      entry.Separable := by
    refine List.forall_mem_cons.mpr ⟨trivial, List.forall_mem_singleton.mpr ?_⟩
    exact ⟨by decide, by decide⟩
  have left : LeftOf (commitRecord.entry ++ [newline] ++ ascii "MIGR")
      [.flush [commitRecord], .logMigration (oneRowMigration (ascii "t") (ascii "a"))] := by
    rw [leftOf_iff]
    decide +kernel
  have determined := (torn_log_determines _ _ separable left).2 [.flush [commitRecord]]
    (List.forall_mem_singleton.mpr trivial)
  exact determined.2 (commitRecord.entry ++ [newline]) (by rw [logFileOf_eq]; decide +kernel)
    (List.prefix_append _ _)

end MiniDB.Log
