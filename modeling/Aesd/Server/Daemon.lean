import Aesd.Lib.Descriptors
import Aesd.Lib.Reactive

/-!
# Becoming a daemon

`main` opens and binds its socket first and becomes a daemon after that: the child of a
`fork` closes the descriptors 0, 1 and 2 and opens `/dev/null` in their place.  If the
socket is one of the three, it is closed with them.
-/

namespace Aesd

open Descriptors Loop Reactive

inductive OpenFile where
  | serverSocket
  | devNull
  | inherited (number : Nat)
  deriving DecidableEq, Repr

inductive SetupCall where
  | socket
  | setsockopt (socketFd : Nat)
  | bind (socketFd : Nat)
  | fork
  | close (fd : Nat)
  | openNull
  | dup2 (nullFd fd : Nat)
  | setsid
  | chdir
  | listen (socketFd : Nat)
  deriving DecidableEq, Repr

inductive Setup where
  | socket
  | setsockopt (socketFd : Nat)
  | bind (socketFd : Nat)
  | fork (socketFd : Nat)
  | close (socketFd fd : Nat)
  | openNull (socketFd : Nat)
  | dup2 (socketFd nullFd fd : Nat)
  | setsid (socketFd : Nat)
  | chdir (socketFd : Nat)
  | listen (socketFd : Nat)
  deriving DecidableEq, Repr

inductive SetupResult where
  | listening (socketFd : Nat)
  /-- `terminate(EXIT_FAILURE)`. -/
  | failure
  /-- The parent of the daemon exits. -/
  | parent
  deriving DecidableEq, Repr

/-- Every call is checked for a negative result. -/
def checked (result : Int) (next : Flow Setup SetupResult) : Flow Setup SetupResult :=
  if result < 0 then .leave .failure else next

/-- `main` from `socket` to `listen`. -/
def setup (runningAsDaemon : Bool) : Process Setup SetupCall Int SetupResult where
  call
    | .socket => .socket
    | .setsockopt socketFd => .setsockopt socketFd
    | .bind socketFd => .bind socketFd
    | .fork _ => .fork
    | .close _ fd => .close fd
    | .openNull _ => .openNull
    | .dup2 _ nullFd fd => .dup2 nullFd fd
    | .setsid _ => .setsid
    | .chdir _ => .chdir
    | .listen socketFd => .listen socketFd
  resume
    | .socket, socketFd => checked socketFd (.next (.setsockopt socketFd.toNat))
    | .setsockopt socketFd, result => checked result (.next (.bind socketFd))
    | .bind socketFd, result =>
        checked result
          (if runningAsDaemon then .next (.fork socketFd) else .next (.listen socketFd))
    | .fork socketFd, processId =>
        checked processId
          (if 0 < processId then .leave .parent else .next (.close socketFd 0))
    | .close socketFd fd, result =>
        checked result
          (if fd < 2 then .next (.close socketFd (fd + 1)) else .next (.openNull socketFd))
    | .openNull socketFd, nullFd => checked nullFd (.next (.dup2 socketFd nullFd.toNat 0))
    | .dup2 socketFd nullFd fd, result =>
        checked result
          (if fd < 2 then .next (.dup2 socketFd nullFd (fd + 1)) else .next (.setsid socketFd))
    | .setsid socketFd, sid => checked sid (.next (.chdir socketFd))
    | .chdir socketFd, result => checked result (.next (.listen socketFd))
    | .listen socketFd, result => checked result (.leave (.listening socketFd))

/-- What the calls answer and do. Only a socket can listen. -/
def SetupAnswers (event : SetupCall × Int) (table table' : Table OpenFile) : Prop :=
  match event with
  | (.socket, result) => Opens .serverSocket table result table'
  | (.openNull, result) => Opens .devNull table result table'
  | (.close fd, result) => Closes fd table result table'
  | (.dup2 nullFd fd, result) => Duplicates nullFd fd table result table'
  | (.listen socketFd, result) =>
      (0 ≤ result → table socketFd = some .serverSocket) ∧ table' = table
  | (.setsockopt _, _) | (.bind _, _) | (.fork, _) | (.setsid, _) | (.chdir, _) => table' = table

section Tables

def withSocket (table : Table OpenFile) (socketFd : Nat) : Table OpenFile :=
  Function.update table socketFd (some .serverSocket)

def closedBelow (table : Table OpenFile) (count : Nat) : Table OpenFile :=
  fillBelow table count none

def nullBelow (table : Table OpenFile) (count : Nat) : Table OpenFile :=
  fillBelow (closedBelow table 3) count (some .devNull)

variable {table : Table OpenFile} {count fd : Nat}

theorem update_closedBelow : Function.update (closedBelow table count) count none =
    closedBelow table (count + 1) := update_fillBelow

theorem update_nullBelow : Function.update (nullBelow table count) count (some .devNull) =
    nullBelow table (count + 1) := update_fillBelow

theorem update_nullBelow_of_lt (less : fd < count) :
    Function.update (nullBelow table count) fd (some .devNull) = nullBelow table count :=
  update_fillBelow_of_lt less

theorem closedBelow_zero (table : Table OpenFile) : closedBelow table 0 = table :=
  fillBelow_zero table none

theorem nullBelow_zero (table : Table OpenFile) : nullBelow table 0 = closedBelow table 3 :=
  fillBelow_zero _ _

theorem nullBelow_of_lt (less : fd < count) : nullBelow table count fd = some .devNull :=
  fillBelow_of_lt less

theorem nullBelow_of_le (large : 3 ≤ fd) : nullBelow table 3 fd = table fd := by
  rw [nullBelow, fillBelow_of_le large, closedBelow, fillBelow_of_le large]

theorem closes_closedBelow (isOpen : table count ≠ none) :
    Closes count (closedBelow table count) 0 (closedBelow table (count + 1)) := by
  rw [← update_closedBelow]
  refine .closed ?_ (Int.le_refl 0)
  rwa [closedBelow, fillBelow_of_le le_rfl]

theorem opens_nullBelow (table : Table OpenFile) :
    Opens .devNull (closedBelow table 3) 0 (nullBelow table 1) := by
  rw [← nullBelow_zero, ← update_nullBelow]
  exact .opened (.zero rfl)

theorem duplicates_nullBelow (positive : 0 < count) :
    Duplicates 0 count (nullBelow table count) count (nullBelow table (count + 1)) := by
  rw [← update_nullBelow]
  exact .duplicated (nullBelow_of_lt positive)

end Tables

def DaemonAt (initial : Table OpenFile) : Setup → Table OpenFile → Prop
  | .socket, table => table = initial
  | .setsockopt socketFd, table | .bind socketFd, table | .fork socketFd, table =>
      Lowest initial socketFd ∧ table = withSocket initial socketFd
  | .close socketFd fd, table =>
      Lowest initial socketFd ∧ fd < 3 ∧ table = closedBelow (withSocket initial socketFd) fd
  | .openNull socketFd, table =>
      Lowest initial socketFd ∧ table = closedBelow (withSocket initial socketFd) 3
  | .dup2 socketFd nullFd fd, table =>
      Lowest initial socketFd ∧ nullFd = 0 ∧ fd < 3 ∧
        table = nullBelow (withSocket initial socketFd) (max fd 1)
  | .setsid socketFd, table | .chdir socketFd, table | .listen socketFd, table =>
      Lowest initial socketFd ∧ table = nullBelow (withSocket initial socketFd) 3

def Daemonized (initial : Table OpenFile) : SetupResult → Table OpenFile → Prop
  | .listening socketFd, table =>
      (∀ fd < 3, initial fd ≠ none) ∧ Lowest initial socketFd ∧
        table = nullBelow (withSocket initial socketFd) 3
  | .failure, _ | .parent, _ => True

section Daemon

variable {initial table table' : Table OpenFile} {state : Setup} {reply : Int}

theorem checked_satisfies {result : Int} {next : Flow Setup SetupResult}
    {onNext : Setup → Prop}
    (satisfied : 0 ≤ result → next.Satisfies onNext (Daemonized initial · table)) :
    (checked result next).Satisfies onNext (Daemonized initial · table) := by
  unfold checked
  split
  · trivial
  · exact satisfied (by omega)

theorem DaemonAt.step (daemon : DaemonAt initial state table)
    (answered : SetupAnswers ((setup true).call state, reply) table table') :
    ((setup true).resume state reply).Satisfies (DaemonAt initial · table')
      (Daemonized initial · table') := by
  cases state with
  | socket =>
      refine checked_satisfies fun nonnegative => ?_
      obtain rfl := daemon
      obtain ⟨fd, rfl, lowest, rfl⟩ := Opens.of_nonneg answered nonnegative
      exact ⟨lowest, rfl⟩
  | setsockopt socketFd =>
      obtain rfl := answered
      exact checked_satisfies fun _ => daemon
  | bind socketFd =>
      obtain rfl := answered
      exact checked_satisfies fun _ => daemon
  | fork socketFd =>
      obtain rfl := answered
      refine checked_satisfies fun _ => ?_
      split
      · trivial
      · exact ⟨daemon.1, by decide, daemon.2.trans (closedBelow_zero _).symm⟩
  | close socketFd fd =>
      refine checked_satisfies fun nonnegative => ?_
      obtain ⟨lowest, small, rfl⟩ := daemon
      obtain ⟨_, rfl⟩ := Closes.of_nonneg answered nonnegative
      rw [update_closedBelow]
      split
      · exact ⟨lowest, by omega, rfl⟩
      · obtain rfl : fd = 2 := by omega
        exact ⟨lowest, rfl⟩
  | openNull socketFd =>
      refine checked_satisfies fun nonnegative => ?_
      obtain ⟨lowest, rfl⟩ := daemon
      obtain ⟨fd, rfl, isLowest, rfl⟩ := Opens.of_nonneg answered nonnegative
      obtain rfl : fd = 0 := isLowest.unique (Lowest.zero rfl)
      refine ⟨lowest, rfl, by decide, ?_⟩
      rw [← nullBelow_zero, update_nullBelow]
      rfl
  | dup2 socketFd nullFd fd =>
      refine checked_satisfies fun nonnegative => ?_
      obtain ⟨lowest, rfl, small, rfl⟩ := daemon
      obtain ⟨file, isOpen, rfl⟩ := Duplicates.of_nonneg answered nonnegative
      obtain rfl : file = .devNull := by
        have null : nullBelow (withSocket initial socketFd) (max fd 1) 0 = some .devNull := by
          exact nullBelow_of_lt (by omega)
        exact Option.some.inj (isOpen.symm.trans null)
      have next : Function.update (nullBelow (withSocket initial socketFd) (max fd 1)) fd
          (some .devNull) = nullBelow (withSocket initial socketFd) (fd + 1) := by
        rcases Nat.eq_zero_or_pos fd with rfl | positive
        · exact update_nullBelow_of_lt (by decide)
        · rw [Nat.max_eq_left positive, update_nullBelow]
      rw [next]
      split
      · exact ⟨lowest, rfl, by omega, by rw [Nat.max_eq_left (by omega)]⟩
      · obtain rfl : fd = 2 := by omega
        exact ⟨lowest, rfl⟩
  | setsid socketFd =>
      obtain rfl := answered
      exact checked_satisfies fun _ => daemon
  | chdir socketFd =>
      obtain rfl := answered
      exact checked_satisfies fun _ => daemon
  | listen socketFd =>
      refine checked_satisfies fun nonnegative => ?_
      obtain ⟨lowest, rfl⟩ := daemon
      obtain ⟨isSocket, rfl⟩ := answered
      have large : 3 ≤ socketFd := by
        refine Nat.le_of_not_lt fun less => ?_
        have null := isSocket nonnegative
        rw [nullBelow_of_lt less] at null
        cases null
      exact ⟨fun fd less => lowest.below fd (by omega), lowest, rfl⟩

theorem daemonized_of_performs {trace : List (SetupCall × Int)} {result : SetupResult}
    (performed : (setup true).Performs SetupAnswers .socket initial trace result table') :
    Daemonized initial result table' := by
  have start : DaemonAt initial .socket initial := rfl
  exact performed.post (fun _ => DaemonAt initial) (fun _ => Daemonized initial) start
    fun _ _ _ _ _ daemon answered => daemon.step answered

theorem checked_of_nonneg {result : Int} (nonnegative : 0 ≤ result)
    (next : Flow Setup SetupResult) : checked result next = next :=
  if_neg (Int.not_lt.mpr nonnegative)

def daemonTrace (socketFd : Nat) : List (SetupCall × Int) :=
  [(.socket, socketFd), (.setsockopt socketFd, 0), (.bind socketFd, 0), (.fork, 0), (.close 0, 0),
    (.close 1, 0), (.close 2, 0), (.openNull, 0), (.dup2 0 0, 0), (.dup2 0 1, 1), (.dup2 0 2, 2),
    (.setsid, 1), (.chdir, 0), (.listen socketFd, 0)]

theorem performs_daemonTrace (opened : ∀ fd < 3, initial fd ≠ none) {socketFd : Nat}
    (lowest : Lowest initial socketFd) :
    (setup true).Performs SetupAnswers .socket initial (daemonTrace socketFd)
      (.listening socketFd) (nullBelow (withSocket initial socketFd) 3) := by
  have large : 3 ≤ socketFd := Nat.le_of_not_lt fun less => opened socketFd less lowest.free
  have isOpen : ∀ fd < 3, withSocket initial socketFd fd ≠ none := by
    intro fd less
    rw [withSocket, Function.update_of_ne (by omega)]
    exact opened fd less
  have isSocket : nullBelow (withSocket initial socketFd) 3 socketFd = some .serverSocket := by
    rw [nullBelow_of_le large, withSocket, Function.update_self]
  have again : Duplicates 0 0 (nullBelow (withSocket initial socketFd) 1) (0 : Nat)
      (nullBelow (withSocket initial socketFd) 1) := by
    have twice : Duplicates 0 0 (nullBelow (withSocket initial socketFd) 1) (0 : Nat)
        (Function.update (nullBelow (withSocket initial socketFd) 1) 0 (some .devNull)) :=
      .duplicated rfl
    rwa [update_nullBelow_of_lt (by decide)] at twice
  have proceeds := @checked_of_nonneg
  have closing := @closes_closedBelow (withSocket initial socketFd)
  have nulls := @duplicates_nullBelow (withSocket initial socketFd)
  apply Process.Performs.next (.opened lowest) (proceeds (Int.natCast_nonneg socketFd) _)
  apply Process.Performs.next rfl (proceeds (Int.le_refl 0) _)
  apply Process.Performs.next rfl (proceeds (Int.le_refl 0) _)
  apply Process.Performs.next rfl (proceeds (Int.le_refl 0) _)
  have first := closing (isOpen 0 (by decide))
  rw [closedBelow_zero] at first
  apply Process.Performs.next first (proceeds (Int.le_refl 0) _)
  apply Process.Performs.next (closing (isOpen 1 (by decide))) (proceeds (Int.le_refl 0) _)
  apply Process.Performs.next (closing (isOpen 2 (by decide))) (proceeds (Int.le_refl 0) _)
  apply Process.Performs.next (opens_nullBelow _) (proceeds (Int.le_refl 0) _)
  apply Process.Performs.next again (proceeds (Int.le_refl 0) _)
  apply Process.Performs.next (nulls Nat.one_pos) (proceeds (Int.natCast_nonneg 1) _)
  apply Process.Performs.next (nulls Nat.two_pos) (proceeds (Int.natCast_nonneg 2) _)
  apply Process.Performs.next rfl (proceeds (show (0 : Int) ≤ 1 by decide) _)
  apply Process.Performs.next rfl (proceeds (Int.le_refl 0) _)
  exact .leave ⟨fun _ => isSocket, rfl⟩ (proceeds (Int.le_refl 0) _)

/-- The server can come to listen as a daemon if and only if its descriptors 0, 1 and 2 were
open when it opened its socket. It has `/dev/null` for them then, its socket, and all that
was open before. -/
theorem daemon_listens_iff (free : ∃ fd, initial fd = none) :
    ((∃ trace socketFd table', (setup true).Performs SetupAnswers .socket initial trace
        (.listening socketFd) table') ↔ ∀ fd < 3, initial fd ≠ none) ∧
    ∀ trace socketFd table', (setup true).Performs SetupAnswers .socket initial trace
        (.listening socketFd) table' →
      Lowest initial socketFd ∧ ∀ fd, table' fd =
        if fd < 3 then some .devNull else if fd = socketFd then some .serverSocket
        else initial fd := by
  refine ⟨⟨?_, ?_⟩, ?_⟩
  · rintro ⟨trace, socketFd, table', performed⟩
    exact (daemonized_of_performs performed).1
  · intro opened
    obtain ⟨socketFd, lowest⟩ := exists_lowest free
    exact ⟨_, socketFd, _, performs_daemonTrace opened lowest⟩
  · intro trace socketFd table' performed
    obtain ⟨_, lowest, rfl⟩ := daemonized_of_performs performed
    refine ⟨lowest, fun fd => ?_⟩
    by_cases small : fd < 3
    · rw [if_pos small]
      exact nullBelow_of_lt small
    · rw [if_neg small, nullBelow_of_le (Nat.not_lt.mp small), withSocket, Function.update_apply]

/-- Without a descriptor 0 when it opens its socket, the server cannot listen as a daemon. -/
theorem daemon_listens_iff_closed :
    ¬ ∃ trace socketFd table', (setup true).Performs SetupAnswers .socket
      (fun fd => if fd = 1 ∨ fd = 2 then some (.inherited fd) else none) trace
      (.listening socketFd) table' := by
  intro listens
  have opened := (daemon_listens_iff ⟨0, rfl⟩).1.mp listens
  exact opened 0 (by decide) rfl

end Daemon

end Aesd
