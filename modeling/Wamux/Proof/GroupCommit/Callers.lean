import Wamux.Proof.GroupCommit.Jobs

namespace Wamux.Proof.GroupCommit
open Wamux.GroupCommit

variable {F : Faults} {cap : Nat} {taken : List TaskId} {written written' : TaskId → List String}
  {b : BatchState} {t : TaskId}

/-! ## Statements of the callers on the guarded connection -/

theorem transaction_write (db : FakeDb) (write : Write) : transaction (db.write write) = transaction db := by
  unfold FakeDb.write transaction
  split_ifs <;> simp_all

theorem Sound.write {db : FakeDb} {ledger : Ledger} (sound : Sound db ledger) (write : Write) :
    Sound (db.write write) ledger := by
  unfold FakeDb.write
  split_ifs with inside
  · exact ⟨by simp [inside], sound.implied, sound.running⟩
  · exact ⟨sound.outside, sound.implied, sound.running⟩

theorem flatMap_writesOf {jobs : List TaskId} (apart : t ∉ jobs) {value : String} :
    jobs.flatMap (writesOf (Function.update written t (written t ++ [value]))) =
      jobs.flatMap (writesOf written) := by
  refine List.flatMap_congr fun u member => ?_
  have other : u ≠ t := by rintro rfl; exact apart member
  simp [writesOf, other]

theorem Log.write {db : FakeDb} {ledger : Ledger} {value : String} (log : Log written db ledger)
    (inside : db.inTransaction = true) (running : ledger.running = some t) (notHeld : t ∉ ledger.held)
    (notDurable : t ∉ ledger.durable) :
    Log (Function.update written t (written t ++ [value])) (db.write ⟨t, value⟩) ledger := by
  unfold FakeDb.write
  rw [if_pos inside]
  refine ⟨?_, ?_, ?_⟩
  · rw [flatMap_writesOf notDurable]
    exact log.committed
  · simp [log.opened, running, flatMap_writesOf notHeld, writesOf]
  · rw [flatMap_writesOf notHeld]
    exact log.marked

theorem Holds.write (holds : Holds F taken written b) {write : Write}
    (log : F.guardWrites ∨ Log written' (b.conn.write write) b.ledger) :
    Holds F taken written' { b with conn := b.conn.write write } :=
  ⟨holds.sound.write write, holds.order, holds.once, log, holds.sent, holds.apart, holds.answered,
    holds.unsent, holds.kept, holds.named, holds.lost,
    fun inside => holds.carried (by simpa only [transaction_write] using inside)⟩

theorem Job.write (job : Job F cap taken written false t b) (value : String) :
    Job F cap taken (Function.update written t (written t ++ [value])) false t
      { b with conn := b.conn.write ⟨t, value⟩ } := by
  obtain ⟨running, inside⟩ := job.inside rfl
  have entered : b.conn.inTransaction = true := by
    rcases inside with saved | ⟨-, implicit⟩
    · exact (transaction_saved.1 saved).1
    · exact (transaction_implicit.1 implicit).1
  refine ⟨⟨job.holds.write ?_, job.quiet⟩, job.usable.congr rfl (.inr rfl), job.job, job.unsent, job.notHeld,
    job.notDurable, fun _ => ⟨running, by rwa [transaction_write]⟩, by simp⟩
  exact job.holds.log.imp_right fun log => log.write entered running job.notHeld job.notDurable

theorem Ended.write (ended : Ended F cap taken written b) (may : F.guardWrites) (write : Write) :
    Ended F cap taken written { b with conn := b.conn.write write } := by
  refine ⟨⟨ended.holds.write (.inl may), ended.quiet⟩, ?_, ended.idle⟩
  rcases ended.situation with ⟨none, out⟩ | ⟨usable, begun⟩ | ⟨stale, usable, out⟩
  · exact .closed none ended.idle (by rwa [transaction_write])
  · exact .opened (usable.congr rfl (.inr rfl)) ended.idle (by rwa [transaction_write])
  · exact .stale stale (usable.congr rfl (.inr rfl)) ended.idle (by rwa [transaction_write])

/-- The engine rolls the transaction back: what ROLLBACK would do, with the batch none the wiser. -/
def rolledBack (b : BatchState) : BatchState :=
  { b with conn := b.conn.rollbackOpen, ledger := b.ledger.record false .rollback }

theorem Job.abort (job : Job F cap taken written false t b) (may : F.auto) :
    Job F cap taken written true t (rolledBack b) ∧ Guarantee none b (rolledBack b) := by
  obtain ⟨running, inside⟩ := job.inside rfl
  have entered : transaction b.conn ≠ .out := by
    rcases inside with saved | ⟨-, implicit⟩
    · simp [saved]
    · simp [implicit]
  have same : (serve .rollback false b).2 = rolledBack b := by rw [rollback_runs entered]; rfl
  have holds : Holds F taken written (rolledBack b) := same ▸ job.holds.serve .rollback trivial
  have guarantee : Guarantee none b (rolledBack b) := same ▸ .serve job.holds.sound .rollback (by simp)
  refine ⟨⟨⟨holds, job.quiet⟩, job.usable.congr rfl (.inr rfl), job.job, job.unsent, ?_, job.notDurable, by simp,
    fun _ => ⟨may, rfl⟩⟩, guarantee⟩
  simp [rolledBack, Ledger.record]

end Wamux.Proof.GroupCommit
