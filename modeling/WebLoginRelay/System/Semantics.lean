import WebLoginRelay.Delivery.Queue
import WebLoginRelay.Services.Registration

/-!
# Runs of the relay

The relay serves HTTP registrations, Matrix events and delivery ticks concurrently over one database.
A task is one call of `register_session`, `handle_inbound` or `tick`; it can be interrupted before
each of its operations, and it can be cancelled for good. A `Run` is any finite interleaving of tasks.

The clock, the random number generator, the sites and the Matrix outbox answer anything. A statement
takes effect at one moment, on the committed database with the transaction's own writes, provided that
no other open transaction holds a cell it needs; until then it waits. Every database operation may also
fail, and the answer to a commit may be lost after the commit. A failed statement aborts its
transaction.
-/

namespace WebLoginRelay
open Text Txn

/-- An operation that was performed: its response, and the entries of the journal it read or wrote. -/
structure Act where
  op : Op
  resp : op.Resp
  log : List Entry

/-- The entries that reach the committed database with the action. -/
def Act.writes (a : Act) : List Entry :=
  match a.op with
  | .commit => a.log
  | .auto _ => a.log
  | _ => []

/-- What a task has done, and its open transaction: when it began, and its journal. -/
structure Local where
  past : List Act := []
  tx : Option DateTime := none
  log : List Entry := []

/-- The open transaction after an action. -/
def Local.txAfter (l : Local) : Act → Option DateTime × List Entry
  | ⟨.begin, Except.ok now, _⟩ => (some now, [])
  | ⟨.exec _, Except.ok _, es⟩ => (l.tx, l.log ++ es)
  | ⟨.exec _, Except.error _, _⟩ => (none, [])
  | ⟨.commit, _, _⟩ => (none, [])
  | ⟨.rollback, _, _⟩ => (none, [])
  | ⟨.drop, _, _⟩ => (none, [])
  | _ => (l.tx, l.log)

/-- The task after an action. -/
def Local.after (l : Local) (a : Act) : Local :=
  ⟨l.past ++ [a], (l.txAfter a).1, (l.txAfter a).2⟩

/-- The actions a task can perform on a database. -/
inductive OpStep (db : Db) (seqs : Seqs) (l : Local) : Act → Seqs → Prop where
  | now (t : Int64) : OpStep db seqs l ⟨.now, t, []⟩ seqs
  | fillBytes {n} (b : { b : Bytes // b.length = n }) : OpStep db seqs l ⟨.fillBytes n, b, []⟩ seqs
  | request {r} (answer : Except RelayError SiteResponse) :
    OpStep db seqs l ⟨.request r, answer, []⟩ seqs
  | sendNotice {roomId body} (answer : Except RelayError Unit) :
    OpStep db seqs l ⟨.sendNotice roomId body, answer, []⟩ seqs
  | begin (answer : Except DbError DateTime) : OpStep db seqs l ⟨.begin, answer, []⟩ seqs
  | exec {q now} :
    l.tx = some now →
    OpStep db seqs l
      ⟨.exec q, (q.run (journal.replay db l.log) seqs now).resp,
        (q.run (journal.replay db l.log) seqs now).log⟩
      (q.run (journal.replay db l.log) seqs now).seqs
  | execFault {q} : OpStep db seqs l ⟨.exec q, Except.error .other, []⟩ seqs
  | commit {now} (answer : Except DbError Unit) :
    l.tx = some now →
    OpStep db seqs l ⟨.commit, answer, l.log⟩ seqs
  | commitFault : OpStep db seqs l ⟨.commit, Except.error .other, []⟩ seqs
  | rollback (answer : Except DbError Unit) : OpStep db seqs l ⟨.rollback, answer, []⟩ seqs
  | drop : OpStep db seqs l ⟨.drop, (), []⟩ seqs
  | auto {a now locked r r'} :
    (Auto.run db seqs now locked a).resp = .ok r →
    a.Reorders r r' →
    OpStep db seqs l ⟨.auto a, Except.ok r', (a.run db seqs now locked).log⟩ seqs
  | autoLost {a now locked} :
    OpStep db seqs l ⟨.auto a, Except.error .other, (Auto.run db seqs now locked a).log⟩ seqs
  | autoFault {a} : OpStep db seqs l ⟨.auto a, Except.error .other, []⟩ seqs

/-- A call the relay serves. -/
inductive Input where
  | register (request : RegistrationRequest)
  | inbound (event : InboundEvent)
  | tick
  deriving DecidableEq, Repr

/-- `dispatch_text` takes the room snapshot of the event's own sender. -/
def Input.WellFormed : Input → Prop
  | .inbound event => event.room.sender = event.sender
  | _ => True

instance : (i : Input) → Decidable i.WellFormed
  | .inbound event => inferInstanceAs (Decidable (event.room.sender = event.sender))
  | .register _ => .isTrue trivial
  | .tick => .isTrue trivial

/-- What a call returns. -/
inductive Result where
  | registered (r : Except RelayError (RegistrationResponse × Bool))
  | handled (r : Except RelayError HandleResult)
  | ticked (r : Except RelayError Unit)

/-- The program of a call. -/
def Input.prog (st : AppState) : Input → Prog Op Op.Resp Result
  | .register request => Result.registered <$> (registerSession st request).run
  | .inbound event => Result.handled <$> (handleInbound st event).run
  | .tick => Result.ticked <$> (WebLoginRelay.tick st).run

/-- A call in progress; `rest` is what it still has to do, unless it was cancelled. -/
structure Task where
  input : Input
  rest : Option (Prog Op Op.Resp Result)
  loc : Local

/-- The committed database, its sequences, and the tasks. Task names are not used again. -/
structure Sys where
  db : Db
  seqs : Seqs
  tasks : Nat → Option Task

/-- The journal of a task. -/
def Sys.journalOf (S : Sys) (t : Nat) : List Entry := (S.tasks t).elim [] (·.loc.log)

/-- Before any call. -/
def Sys.init : Sys := ⟨Db.empty, {}, fun _ => none⟩

/-- One step of a run; an action is shown with its call and what the call has done before. -/
inductive Label where
  | spawn (t : Nat) (input : Input)
  | act (t : Nat) (input : Input) (l : Local) (a : Act)
  | cancel (t : Nat)

/-- The tasks whose locks an action of `t` has to wait for: a statement on a pooled connection of its
own waits for all of them. -/
def Act.waitsFor (a : Act) (t u : Nat) : Prop :=
  match a.op with
  | .auto _ => True
  | _ => u ≠ t

/-- No other transaction holds a cell of the action. -/
def Sys.Free (S : Sys) (t : Nat) (a : Act) : Prop :=
  ∀ u, a.waitsFor t u → Disjoint (journal.locks a.log) (journal.locks (S.journalOf u))

/-- Replace one task. -/
def Sys.set (S : Sys) (t : Nat) (task : Task) : Nat → Option Task :=
  Function.update S.tasks t (some task)

/-- The steps of the relay. -/
inductive Step (st : AppState) : Sys → Label → Sys → Prop where
  | spawn {S : Sys} {t input} :
    S.tasks t = none →
    input.WellFormed →
    Step st S (.spawn t input) { S with tasks := S.set t ⟨input, some (input.prog st), {}⟩ }
  | act {S : Sys} {t input o k l r es seqs} :
    S.tasks t = some ⟨input, some (.req o k), l⟩ →
    OpStep S.db S.seqs l ⟨o, r, es⟩ seqs →
    S.Free t ⟨o, r, es⟩ →
    Step st S (.act t input l ⟨o, r, es⟩)
      ⟨journal.replay S.db (Act.writes ⟨o, r, es⟩), seqs,
        S.set t ⟨input, some (k r), l.after ⟨o, r, es⟩⟩⟩
  | cancel {S : Sys} {t input p l} :
    S.tasks t = some ⟨input, some p, l⟩ →
    Step st S (.cancel t) { S with tasks := S.set t ⟨input, none, { past := l.past }⟩ }

/-- The finite runs, with their labels in order. -/
inductive Run (st : AppState) : List Label → Sys → Prop where
  | init : Run st [] Sys.init
  | step {ls S lb S'} : Run st ls S → Step st S lb S' → Run st (ls ++ [lb]) S'

end WebLoginRelay
