import Mathlib.Data.List.FinRange
import Mathlib.Logic.Function.Basic
import PosixC.Foundation.CText
import PosixC.Foundation.Transfers
import PosixC.Foundation.Transition

/-! `werecat` of ex11, which merges FIFOs.

All its descriptors do not block. Each round takes a snapshot with `poll`, reads what is
announced until there is no more, and gives up the descriptors that are hung up.
-/

set_option autoImplicit false

namespace PosixC.Werecat

open Foundation CText Transfers

def catBufferSize : Nat := 128

structure Revents where
  pollin : Bool
  pollerr : Bool
  pollhup : Bool
  pollnval : Bool
  deriving DecidableEq, Repr

structure Pollfd where
  fd : Int
  revents : Revents
  deriving DecidableEq, Repr

/-- The kernel's side of a descriptor. `met` says that a writer has come since the `open`. -/
structure Fifo where
  unread : Bytes
  writers : Nat
  met : Bool
  deriving DecidableEq, Repr

inductive Point (count : Nat) where
  | poll
  | check (todo : List (Fin count))
  | read (i : Fin count) (todo : List (Fin count))
  | write (i : Fin count) (pending : Bytes) (todo : List (Fin count))
  | drop (i : Fin count) (todo : List (Fin count))
  | exited
  deriving DecidableEq

structure State (count : Nat) where
  fds : Fin count → Pollfd
  fifos : Fin count → Fifo
  wt : Int
  point : Point count

inductive Note (count : Nat) where
  | arrived (i : Fin count) (bytes : Bytes)
  | polled
  | wrote (i : Fin count) (bytes : Bytes)
  | dropped (i : Fin count)
  | writeFailed (errno : Nat)
  | readFailed (i : Fin count) (errno : Nat)
  | pollFailed (errno : Nat)
  deriving DecidableEq

def Fifo.revents (fifo : Fifo) : Revents :=
  ⟨!fifo.unread.isEmpty, false, fifo.met && fifo.writers = 0, false⟩

/-- A negative descriptor is passed over. -/
def pollOne (fifo : Fifo) (pollfd : Pollfd) : Pollfd :=
  { pollfd with revents := if pollfd.fd < 0 then ⟨false, false, false, false⟩ else fifo.revents }

def Revents.hung (revents : Revents) : Bool := revents.pollerr || revents.pollhup || revents.pollnval

def Pollfd.ready (pollfd : Pollfd) : Bool := pollfd.revents.pollin || pollfd.revents.hung

variable {count : Nat}

/-- One statement of `main`, whose system call is answered. `none` while `poll` waits. -/
def werecatStep (state : State count) (answer : Answer) : Option (State count × List (Note count)) :=
  match state.point with
  | .poll =>
      match answer with
      | .failed errno => some ({ state with point := .exited }, [.pollFailed errno])
      | .moved _ =>
          let fds := fun i => pollOne (state.fifos i) (state.fds i)
          if (List.finRange count).any fun i => (fds i).ready then
            some ({ state with fds := fds, point := .check (List.finRange count) }, [.polled])
          else none
  | .check [] => some ({ state with point := .poll }, [])
  | .check (i :: todo) =>
      some ({ state with point := if (state.fds i).revents.pollin then .read i todo else .drop i todo }, [])
  | .read i todo =>
      if state.wt < 0 then some ({ state with point := .drop i todo }, [])
      else
        match answer with
        | .failed errno => some ({ state with point := .drop i todo }, [.readFailed i errno])
        | .moved more =>
            let fifo := state.fifos i
            let rd := piece more (min catBufferSize fifo.unread.length)
            -- Without bytes the result is 0 if there is no writer and otherwise `EAGAIN`.
            if rd = 0 then some ({ state with point := .drop i todo }, [])
            else
              some ({ state with
                fifos := Function.update state.fifos i { fifo with unread := fifo.unread.drop rd }
                point := .write i (fifo.unread.take rd) todo }, [])
  | .write i pending todo =>
      match answer with
      | .failed errno => some ({ state with wt := -1, point := .read i todo }, [.writeFailed errno])
      | .moved more =>
          let wt := piece more pending.length
          let rest := pending.drop wt
          some ({ state with wt := wt, point := if rest = [] then .read i todo else .write i rest todo },
            [.wrote i (pending.take wt)])
  | .drop i todo =>
      if (state.fds i).revents.hung then
        some ({ state with fds := Function.update state.fds i { state.fds i with fd := -1 }, point := .check todo },
          [.dropped i])
      else some ({ state with point := .check todo }, [])
  | .exited => none

inductive Action (count : Nat) where
  | run (answer : Answer)
  | connect (i : Fin count)
  | arrive (i : Fin count) (bytes : Bytes)
  | hangup (i : Fin count)
  deriving DecidableEq

def State.setFifo (state : State count) (i : Fin count) (fifo : Fifo) : State count :=
  { state with fifos := Function.update state.fifos i fifo }

/-- From the first `poll` on. Other processes open the FIFOs, write to them and close them. -/
def werecatMachine (count : Nat) : Machine (State count) (Action count) (Note count) where
  step state
    | .run answer => werecatStep state answer
    | .connect i =>
        some (state.setFifo i { state.fifos i with writers := (state.fifos i).writers + 1, met := true }, [])
    | .arrive i bytes =>
        if (state.fifos i).writers = 0 then none
        else
          some (state.setFifo i { state.fifos i with unread := (state.fifos i).unread ++ bytes }, [.arrived i bytes])
    | .hangup i =>
        if (state.fifos i).writers = 0 then none
        else some (state.setFifo i { state.fifos i with writers := (state.fifos i).writers - 1 }, [])

def aloneMachine (count : Nat) : Machine (State count) Answer (Note count) where
  step := werecatStep

/-- The descriptors after the standard ones are open, and nobody has written. -/
def startState (count : Nat) : State count :=
  ⟨fun i => ⟨i + 3, ⟨false, false, false, false⟩⟩, fun _ => ⟨[], 0, false⟩, 0, .poll⟩

/-- What has arrived and what has been put out, FIFO by FIFO. `announced` is what had
arrived at the last `poll`. -/
structure Books (count : Nat) where
  arrived : Fin count → Bytes
  announced : Fin count → Bytes
  wrote : Fin count → Bytes

def appendAt (table : Fin count → Bytes) (i : Fin count) (bytes : Bytes) : Fin count → Bytes :=
  Function.update table i (table i ++ bytes)

def Books.enter (books : Books count) : Note count → Books count
  | .arrived i bytes => { books with arrived := appendAt books.arrived i bytes }
  | .wrote i bytes => { books with wrote := appendAt books.wrote i bytes }
  | .polled => { books with announced := books.arrived }
  | _ => books

def booksOf (notes : List (Note count)) : Books count :=
  notes.foldl Books.enter ⟨fun _ => [], fun _ => [], fun _ => []⟩

theorem booksOf_append (first second : List (Note count)) :
    booksOf (first ++ second) = second.foldl Books.enter (booksOf first) :=
  List.foldl_append

/-- A call has failed otherwise than with `EAGAIN`. -/
def Note.fault : Note count → Bool
  | .writeFailed _ | .readFailed _ _ | .pollFailed _ => true
  | _ => false

def Note.refused : Note count → Bool
  | .writeFailed _ => true
  | _ => false

def Note.puts : Note count → Bool
  | .wrote _ _ => true
  | _ => false

inductive Move (state : State count) : State count → List (Note count) → Prop where
  | quit {errno : Nat} : state.point = .poll → Move state { state with point := .exited } [.pollFailed errno]
  | poll : state.point = .poll → (∃ i, (pollOne (state.fifos i) (state.fds i)).ready = true) →
      Move state { state with
        fds := fun i => pollOne (state.fifos i) (state.fds i)
        point := .check (List.finRange count) } [.polled]
  | again : state.point = .check [] → Move state { state with point := .poll } []
  | enter {i : Fin count} {todo : List (Fin count)} : state.point = .check (i :: todo) →
      (state.fds i).revents.pollin = true → Move state { state with point := .read i todo } []
  | pass {i : Fin count} {todo : List (Fin count)} : state.point = .check (i :: todo) →
      (state.fds i).revents.pollin = false → Move state { state with point := .drop i todo } []
  | stopped {i : Fin count} {todo : List (Fin count)} : state.point = .read i todo → state.wt < 0 →
      Move state { state with point := .drop i todo } []
  | unread {i : Fin count} {todo : List (Fin count)} {errno : Nat} : state.point = .read i todo → 0 ≤ state.wt →
      Move state { state with point := .drop i todo } [.readFailed i errno]
  | drained {i : Fin count} {todo : List (Fin count)} : state.point = .read i todo → 0 ≤ state.wt →
      (state.fifos i).unread = [] → Move state { state with point := .drop i todo } []
  | take {i : Fin count} {todo : List (Fin count)} {rd : Nat} : state.point = .read i todo → 0 ≤ state.wt → 0 < rd →
      rd ≤ (state.fifos i).unread.length →
      Move state { state.setFifo i { state.fifos i with unread := (state.fifos i).unread.drop rd } with
        point := .write i ((state.fifos i).unread.take rd) todo } []
  | unwritten {i : Fin count} {pending : Bytes} {todo : List (Fin count)} {errno : Nat} :
      state.point = .write i pending todo →
      Move state { state with wt := -1, point := .read i todo } [.writeFailed errno]
  | put {i : Fin count} {pending : Bytes} {todo : List (Fin count)} {wt : Nat} : state.point = .write i pending todo →
      wt ≤ pending.length → (pending ≠ [] → 0 < wt) →
      Move state { state with
        wt := wt
        point := if pending.drop wt = [] then .read i todo else .write i (pending.drop wt) todo }
        [.wrote i (pending.take wt)]
  | drop {i : Fin count} {todo : List (Fin count)} : state.point = .drop i todo → (state.fds i).revents.hung = true →
      Move state { state with fds := Function.update state.fds i { state.fds i with fd := -1 }, point := .check todo }
        [.dropped i]
  | keep {i : Fin count} {todo : List (Fin count)} : state.point = .drop i todo → (state.fds i).revents.hung = false →
      Move state { state with point := .check todo } []

theorem move_of_step {state after : State count} {answer : Answer} {written : List (Note count)}
    (step : werecatStep state answer = some (after, written)) : Move state after written := by
  unfold werecatStep at step
  cases place : state.point with
  | poll =>
    simp only [place] at step
    cases answer with
    | failed errno =>
      cases step
      exact .quit place
    | moved more =>
      simp only [Option.ite_none_right_eq_some, List.any_eq_true, List.mem_finRange, true_and] at step
      obtain ⟨ready, same⟩ := step
      cases same
      exact .poll place ready
  | check todo =>
    cases todo with
    | nil =>
      simp only [place] at step
      cases step
      exact .again place
    | cons i todo =>
      simp only [place] at step
      cases step
      cases readable : (state.fds i).revents.pollin with
      | true => exact .enter place readable
      | false => exact .pass place readable
  | read i todo =>
    simp only [place] at step
    split at step
    · next negative =>
      cases step
      exact .stopped place negative
    · next running =>
      cases answer with
      | failed errno =>
        cases step
        exact .unread place (not_lt.mp running)
      | moved more =>
        simp only at step
        split at step
        · next none =>
          cases step
          have empty := piece_zero.mp none
          unfold catBufferSize at empty
          exact .drained place (not_lt.mp running) (List.length_eq_zero_iff.mp (by omega))
        · next some =>
          cases step
          exact .take place (not_lt.mp running) (Nat.pos_of_ne_zero some)
            ((piece_le more _).trans (Nat.min_le_right _ _))
  | write i pending todo =>
    simp only [place] at step
    cases answer with
    | failed errno =>
      cases step
      exact .unwritten place
    | moved more =>
      cases step
      exact .put place (piece_le more _) fun some => piece_pos (List.length_pos_iff.mpr some)
  | drop i todo =>
    simp only [place] at step
    split at step
    · next hung =>
      cases step
      exact .drop place hung
    · next calm =>
      cases step
      exact .keep place (Bool.eq_false_iff.mpr calm)
  | exited => simp [place] at step

@[simp] theorem appendAt_self (table : Fin count → Bytes) (i : Fin count) (bytes : Bytes) :
    appendAt table i bytes i = table i ++ bytes :=
  Function.update_self ..

@[simp] theorem appendAt_of_ne (table : Fin count → Bytes) {i j : Fin count} (different : j ≠ i) (bytes : Bytes) :
    appendAt table i bytes j = table j :=
  Function.update_of_ne different ..

end PosixC.Werecat
