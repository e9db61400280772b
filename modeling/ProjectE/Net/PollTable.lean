import Mathlib.Data.Finset.Basic
import ProjectE.Lib.Transition
import ProjectE.Net.Poll

/-!
# The poll table as a map

What the vector of `Poll` stands for: a map from descriptors to the sets of events asked for. `add`
and `add_write` insert an interest, `remove` deletes a descriptor, `remove_write` deletes one
interest and the descriptor with its last one.

An edit in place is seen through two views of the vector: the first entry of the descriptor edited
(`interests`), and the vector without the entries of that descriptor (`others`), which holds the
interests of every other descriptor and their order. `std::remove` in `remove_write` compares with a
slot that it overwrites; it takes out no second entry because no descriptor has two
(`removeSelf_eq`).
-/

namespace ProjectE.Net

open Verif

/-- What may be asked of a descriptor. -/
inductive Interest where
  | read
  | write
deriving DecidableEq, Repr

/-- The descriptors that are polled, each with what is asked of it. -/
abbrev InterestMap := Fd → Option (Finset Interest)

/-- A call of one of the overloads, with the descriptor of the stream, socket or listener. -/
inductive PollOp where
  | add (fd : Fd)
  | addWrite (fd : Fd)
  | remove (fd : Fd)
  | removeWrite (fd : Fd)
deriving DecidableEq, Repr

/-- The descriptor an operation is about. -/
def PollOp.fd : PollOp → Fd
  | .add fd | .addWrite fd | .remove fd | .removeWrite fd => fd

namespace InterestMap

/-- Nothing is registered. -/
def empty : InterestMap := fun _ => none

/-- One more interest in a descriptor. -/
def insert (m : InterestMap) (fd : Fd) (interest : Interest) : InterestMap :=
  Function.update m fd (some (Insert.insert interest ((m fd).getD ∅)))

/-- A descriptor goes with all its interests. -/
def delete (m : InterestMap) (fd : Fd) : InterestMap := Function.update m fd none

/-- One interest less; the last one takes the descriptor with it. -/
def deleteInterest (m : InterestMap) (fd : Fd) (interest : Interest) : InterestMap :=
  Function.update m fd
    ((m fd).bind fun asked =>
      if asked.erase interest = ∅ then none else some (asked.erase interest))

/-- What each operation is meant to do. -/
def apply (m : InterestMap) : PollOp → InterestMap
  | .add fd => m.insert fd .read
  | .addWrite fd => m.insert fd .write
  | .remove fd => m.delete fd
  | .removeWrite fd => m.deleteInterest fd .write

end InterestMap

namespace Poll

/-- What each operation does to the vector. -/
def apply (poll : Poll) : PollOp → Poll
  | .add fd => poll.add fd
  | .addWrite fd => poll.addWrite fd
  | .remove fd => poll.remove fd
  | .removeWrite fd => poll.removeWrite fd

/-- An entry that asks for read events too. -/
def Entry.reading (pfd : Entry) : Entry := { pfd with pollin := true }

/-- An entry that asks for write events too. -/
def Entry.writing (pfd : Entry) : Entry := { pfd with pollout := true }

/-- What an entry asks for. -/
def Entry.asked (pfd : Entry) : Finset Interest :=
  (if pfd.pollin then {.read} else ∅) ∪ if pfd.pollout then {.write} else ∅

/-- The first entry of a descriptor. -/
def entry (fds : List Entry) (fd : Fd) : Option Entry := fds.find? fun pfd => pfd.fd = fd

/-- The entries of every other descriptor. -/
def others (fds : List Entry) (fd : Fd) : List Entry := fds.filter fun pfd => pfd.fd ≠ fd

/-- The map the table stands for. -/
def interests (poll : Poll) : InterestMap := fun fd => (entry poll.fds fd).map Entry.asked

variable {fd fd' : Fd} {flag : Entry → Entry}

/-! ## The two views -/

/-- The first entry of the descriptor is the one found. -/
theorem entry_cons_self {pfd : Entry} (h : pfd.fd = fd) (fds : List Entry) :
    entry (pfd :: fds) fd = some pfd :=
  List.find?_cons_of_pos (decide_eq_true h)

/-- Entries of other descriptors are passed over. -/
theorem entry_cons_ne {pfd : Entry} (h : ¬ pfd.fd = fd) (fds : List Entry) :
    entry (pfd :: fds) fd = entry fds fd :=
  List.find?_cons_of_neg (by simpa using h)

/-- The descriptor's own entry is not among the others. -/
theorem others_cons_self {pfd : Entry} (h : pfd.fd = fd) (fds : List Entry) :
    others (pfd :: fds) fd = others fds fd :=
  List.filter_cons_of_neg (by simpa using h)

/-- Any other entry is. -/
theorem others_cons_ne {pfd : Entry} (h : ¬ pfd.fd = fd) (fds : List Entry) :
    others (pfd :: fds) fd = pfd :: others fds fd :=
  List.filter_cons_of_pos (by simpa using h)

/-- Without an entry nothing is found. -/
theorem entry_eq_none_of_not_mem {fds : List Entry} (h : fd ∉ fds.map (·.fd)) :
    entry fds fd = none := by
  apply List.find?_eq_none.mpr
  intro pfd hpfd heq
  exact h (of_decide_eq_true heq ▸ List.mem_map_of_mem hpfd)

/-- The entry of another descriptor is found among the others too. -/
theorem entry_others (hne : fd' ≠ fd) : ∀ fds : List Entry,
    entry (others fds fd) fd' = entry fds fd'
  | [] => rfl
  | pfd :: fds => by
    by_cases heq : pfd.fd = fd
    · have hother : ¬ pfd.fd = fd' := fun h => hne (h.symm.trans heq)
      rw [others_cons_self heq, entry_cons_ne hother, entry_others hne]
    · rw [others_cons_ne heq]
      by_cases hfound : pfd.fd = fd'
      · rw [entry_cons_self hfound, entry_cons_self hfound]
      · rw [entry_cons_ne hfound, entry_cons_ne hfound, entry_others hne]

/-- Leaving a descriptor out twice is leaving it out once. -/
theorem others_others (fds : List Entry) (fd : Fd) :
    others (others fds fd) fd = others fds fd := by
  rw [others, others, List.filter_filter]
  simp only [Bool.and_self]

/-- The entries of the others decide about the others. -/
theorem interests_of_others {poll poll' : Poll} (h : others poll'.fds fd = others poll.fds fd)
    (hne : fd' ≠ fd) : poll'.interests fd' = poll.interests fd' := by
  rw [interests, interests, ← entry_others hne poll'.fds, h, entry_others hne poll.fds]

/-- A table whose other descriptors are as before is the map updated at this one. -/
theorem interests_eq_update {poll poll' : Poll} {asked : Option (Finset Interest)}
    (hself : poll'.interests fd = asked) (h : others poll'.fds fd = others poll.fds fd) :
    poll'.interests = Function.update poll.interests fd asked := by
  funext other
  by_cases heq : other = fd
  · rw [heq, Function.update_self, hself]
  · rw [Function.update_of_ne heq, interests_of_others h heq]

/-! ## Asking -/

/-- After a request the descriptor has the entry with the flag set, a new one if it had none. -/
theorem entry_request (hflag : ∀ pfd : Entry, (flag pfd).fd = pfd.fd) : ∀ fds : List Entry,
    entry (request flag fd fds) fd = some (flag ((entry fds fd).getD ⟨fd, false, false⟩))
  | [] => entry_cons_self (hflag _) []
  | pfd :: fds => by
    by_cases heq : pfd.fd = fd
    · rw [request, if_pos heq, entry_cons_self ((hflag pfd).trans heq), entry_cons_self heq,
        Option.getD_some]
    · rw [request, if_neg heq, entry_cons_ne heq, entry_cons_ne heq, entry_request hflag fds]

/-- A request changes no other entry. -/
theorem others_request (hflag : ∀ pfd : Entry, (flag pfd).fd = pfd.fd) : ∀ fds : List Entry,
    others (request flag fd fds) fd = others fds fd
  | [] => others_cons_self (hflag _) []
  | pfd :: fds => by
    by_cases heq : pfd.fd = fd
    · rw [request, if_pos heq, others_cons_self ((hflag pfd).trans heq), others_cons_self heq]
    · rw [request, if_neg heq, others_cons_ne heq, others_cons_ne heq, others_request hflag fds]

/-- A request makes no second entry for a descriptor: a new one goes to the end only where the
search has found none. -/
theorem nodup_request (hflag : ∀ pfd : Entry, (flag pfd).fd = pfd.fd) : ∀ {fds : List Entry},
    (fds.map (·.fd)).Nodup → ((request flag fd fds).map (·.fd)).Nodup
  | [], _ => List.nodup_singleton _
  | pfd :: fds, h => by
    obtain ⟨hfresh, hrest⟩ := List.nodup_cons.mp h
    by_cases heq : pfd.fd = fd
    · rw [request, if_pos heq, List.map_cons, hflag]
      exact h
    · rw [request, if_neg heq, List.map_cons]
      refine List.nodup_cons.mpr ⟨fun hmem => ?_, nodup_request hflag hrest⟩
      obtain ⟨other, hother, hfd⟩ := List.mem_map.mp hmem
      rcases mem_request hflag other hother with hself | hold
      · exact heq (hfd.symm.trans hself)
      · rw [hfd] at hold
        exact hfresh hold

/-! ## Dropping write interest -/

/-- No entry behind the first has its descriptor, nor that of its neighbour. -/
theorem removeSelf_eq {pfd : Entry} {fds : List Entry} (h : ((pfd :: fds).map (·.fd)).Nodup) :
    removeSelf pfd fds = fds := by
  cases fds with
  | nil => rfl
  | cons moved rest =>
    obtain ⟨hfresh, hrest⟩ := List.nodup_cons.mp h
    have hmoved : ¬ moved.fd = pfd.fd := by
      intro heq
      exact hfresh (List.mem_map.mpr ⟨moved, List.mem_cons_self, heq⟩)
    have hkept : rest.filter (fun other => other.fd ≠ moved.fd) = rest := by
      apply List.filter_eq_self.mpr
      intro other hother
      apply decide_eq_true
      intro heq
      exact (List.nodup_cons.mp hrest).1 (List.mem_map.mpr ⟨other, hother, heq⟩)
    rw [removeSelf, List.dropWhile_cons_of_neg (by simpa using hmoved)]
    exact congrArg (moved :: ·) hkept

/-- The descriptor keeps its entry exactly while it is polled for reading. -/
theorem entry_dropWrite : ∀ {fds : List Entry}, (fds.map (·.fd)).Nodup →
    entry (dropWrite fd fds) fd = (entry fds fd).bind fun pfd =>
      if pfd.pollin then some { pfd with pollout := false } else none
  | [], _ => rfl
  | pfd :: fds, h => by
    obtain ⟨hfresh, hrest⟩ := List.nodup_cons.mp h
    by_cases heq : pfd.fd = fd
    · rw [dropWrite, if_pos heq, removeSelf_eq h, entry_cons_self heq, Option.bind_some]
      have hgone : fd ∉ fds.map (·.fd) := heq ▸ hfresh
      split
      · exact entry_cons_self (show ({ pfd with pollout := false } : Entry).fd = fd from heq) fds
      · exact entry_eq_none_of_not_mem hgone
    · rw [dropWrite, if_neg heq, entry_cons_ne heq, entry_cons_ne heq, entry_dropWrite hrest]

/-- Dropping the interest in writing changes no other entry. -/
theorem others_dropWrite : ∀ {fds : List Entry}, (fds.map (·.fd)).Nodup →
    others (dropWrite fd fds) fd = others fds fd
  | [], _ => rfl
  | pfd :: fds, h => by
    by_cases heq : pfd.fd = fd
    · rw [dropWrite, if_pos heq, removeSelf_eq h, others_cons_self heq]
      split
      · exact others_cons_self (show ({ pfd with pollout := false } : Entry).fd = fd from heq) fds
      · rfl
    · rw [dropWrite, if_neg heq, others_cons_ne heq, others_cons_ne heq,
        others_dropWrite (List.nodup_cons.mp h).2]

/-! ## One operation -/

/-- Setting a flag keeps the descriptor. -/
theorem fd_reading (pfd : Entry) : pfd.reading.fd = pfd.fd := rfl

/-- Setting a flag keeps the descriptor. -/
theorem fd_writing (pfd : Entry) : pfd.writing.fd = pfd.fd := rfl

/-- An operation changes the entries of its own descriptor only. -/
theorem others_apply {poll : Poll} (h : poll.descriptors.Nodup) (op : PollOp) :
    others (poll.apply op).fds op.fd = others poll.fds op.fd := by
  cases op with
  | add fd => exact others_request fd_reading poll.fds
  | addWrite fd => exact others_request fd_writing poll.fds
  | remove fd => exact others_others poll.fds fd
  | removeWrite fd => exact others_dropWrite h

/-- No operation makes a second entry for a descriptor. -/
theorem nodup_apply {poll : Poll} (h : poll.descriptors.Nodup) (op : PollOp) :
    (poll.apply op).descriptors.Nodup := by
  cases op with
  | add fd => exact nodup_request fd_reading h
  | addWrite fd => exact nodup_request fd_writing h
  | remove fd => exact h.sublist (List.filter_sublist.map _)
  | removeWrite fd => exact h.sublist (fds_dropWrite_sublist poll.fds)

/-- The interests of an entry are the flags that are set. -/
theorem mem_asked {pfd : Entry} {interest : Interest} : interest ∈ pfd.asked ↔
    (interest = .read ∧ pfd.pollin = true) ∨ (interest = .write ∧ pfd.pollout = true) := by
  obtain ⟨fd, pollin, pollout⟩ := pfd
  cases pollin <;> cases pollout <;> simp [Entry.asked]

/-- To set the flag for reading is to add the interest. -/
theorem asked_reading (pfd : Entry) : pfd.reading.asked = insert .read pfd.asked := by
  ext interest
  cases interest <;> simp [mem_asked, Entry.reading]

/-- To set the flag for writing is to add the interest. -/
theorem asked_writing (pfd : Entry) : pfd.writing.asked = insert .write pfd.asked := by
  ext interest
  cases interest <;> simp [mem_asked, Entry.writing]

/-- Without write interest an entry asks for read events, or for nothing. -/
theorem asked_erase (pfd : Entry) : pfd.asked.erase .write = if pfd.pollin then {.read} else ∅ := by
  ext interest
  cases hpollin : pfd.pollin <;> cases interest <;> simp [mem_asked, hpollin]

/-- What a new entry would ask for before it is flagged: nothing. -/
theorem asked_getD (fds : List Entry) :
    ((entry fds fd).getD ⟨fd, false, false⟩).asked = ((entry fds fd).map Entry.asked).getD ∅ := by
  cases entry fds fd with
  | none => rfl
  | some pfd => rfl

/-- A request adds one interest to one descriptor. -/
theorem interests_request {poll : Poll} (hflag : ∀ pfd : Entry, (flag pfd).fd = pfd.fd)
    {interest : Interest} (hasked : ∀ pfd, (flag pfd).asked = insert interest pfd.asked) :
    interests ⟨request flag fd poll.fds⟩ = poll.interests.insert fd interest := by
  refine interests_eq_update ?_ (others_request hflag poll.fds)
  rw [interests, entry_request hflag, Option.map_some, hasked, asked_getD]
  rfl

/-- `remove` takes out all entries of the descriptor, and so its interests. -/
theorem interests_remove (poll : Poll) (fd : Fd) :
    (poll.remove fd).interests = poll.interests.delete fd := by
  have hgone : fd ∉ (poll.remove fd).fds.map (·.fd) := by
    intro hmem
    obtain ⟨pfd, hpfd, heq⟩ := List.mem_map.mp hmem
    exact of_decide_eq_true (List.mem_filter.mp hpfd).2 heq
  refine interests_eq_update ?_ (others_others poll.fds fd)
  rw [interests, entry_eq_none_of_not_mem hgone, Option.map_none]

/-- Where every descriptor has one entry, `remove_write` takes the interest in writing out; an entry
without another interest goes. -/
theorem interests_removeWrite {poll : Poll} (h : poll.descriptors.Nodup) (fd : Fd) :
    (poll.removeWrite fd).interests = poll.interests.deleteInterest fd .write := by
  refine interests_eq_update ?_ (others_dropWrite h)
  simp only [interests, removeWrite, entry_dropWrite h]
  cases entry poll.fds fd with
  | none => rfl
  | some pfd =>
    simp only [Option.bind_some, Option.map_some, asked_erase]
    obtain ⟨fd, pollin, pollout⟩ := pfd
    cases pollin with
    | false => rfl
    | true => rfl

/-- Seen as a table of interests, the vector does what each operation is meant to do. -/
theorem interests_apply {poll : Poll} (h : poll.descriptors.Nodup) (op : PollOp) :
    (poll.apply op).interests = poll.interests.apply op := by
  cases op with
  | add fd => exact interests_request fd_reading asked_reading
  | addWrite fd => exact interests_request fd_writing asked_writing
  | remove fd => exact interests_remove poll fd
  | removeWrite fd => exact interests_removeWrite h fd

/-- **The poll table refines a finite map**: after any sequence of operations no descriptor has two
entries, and the table stands for what the sequence makes of the empty map; the next operation
leaves the entries of all other descriptors as they are and in their order. -/
theorem table_refines_map (ops : List PollOp) :
    (ops.foldl apply ⟨[]⟩).descriptors.Nodup ∧
    (ops.foldl apply ⟨[]⟩).interests = ops.foldl InterestMap.apply .empty ∧
    ∀ op : PollOp, others ((ops.foldl apply ⟨[]⟩).apply op).fds op.fd =
      others (ops.foldl apply ⟨[]⟩).fds op.fd := by
  have hinv : ∀ (poll : Poll) (op : PollOp), poll.descriptors.Nodup →
      (poll.apply op).descriptors.Nodup := fun _ op h => nodup_apply h op
  have hempty : (⟨[]⟩ : Poll).descriptors.Nodup := List.nodup_nil
  obtain ⟨hnodup, habs⟩ := foldl_refines hinv (fun _ op h => interests_apply h op) ops hempty
  exact ⟨hnodup, habs, others_apply hnodup⟩

end Poll

end ProjectE.Net
