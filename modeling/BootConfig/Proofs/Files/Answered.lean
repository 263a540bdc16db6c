import BootConfig.Proofs.Files.Buffer
import BootConfig.Proofs.Files.Change

/-!
# Trees whose files answer writes

Not every write is taken as a whole. The replies to the writes to come can be laid down beside a
store: a file takes so many bytes of each, or refuses it for a cause, and behind the last reply it
takes all bytes again. On a tree, a file then holds what was taken, and the first refusal is one of
the replies, all of those before it being to take bytes.
-/

namespace BootConfig.Files

/-- What a file does with the bytes of a write. -/
inductive Reply where
  /-- It takes so many of the first of them, if there are as many. -/
  | takes (count : Nat)
  /-- It takes none of them, which is a failure. -/
  | refuses (cause : Error)

section Store

variable {m : Type → Type} {handle : Type} [Monad m] [Store m handle]

/-- Writes bytes to an open file as the next reply says. -/
def writeAnswered (file : handle) (bytes : ByteArray) :
    ExceptT Error (StateT (List Reply) m) Nat := do
  match ← get with
  | [] => below (Store.write file bytes)
  | .takes count :: rest => do
    set rest
    below (Store.write file (bytes.extract 0 count))
  | .refuses cause :: rest => do
    set rest
    throw cause

/-- A store with replies works as the store without them, but for writes to open files. -/
instance : Store (StateT (List Reply) m) handle where
  openInput path := below (Store.openInput path)
  openOutput path := below (Store.openOutput path)
  readAll file := below (Store.readAll file)
  write := writeAnswered
  overwrite path offset bytes := below (Store.overwrite path offset bytes)

end Store

/-- Steps on a tree whose files answer writes. -/
abbrev Answered : Type → Type :=
  StateT (List Reply) (StateM Tree)

/-- The result of a program on a tree whose files answer writes with the given replies, the replies
that are left, and the tree. -/
def Answered.perform {ε α : Type} (program : ExceptT ε Answered α) (replies : List Reply)
    (tree : Tree) : Except ε α × (List Reply × Tree) :=
  Files.perform program (replies, tree)

namespace Reply

/-- A reply is to take bytes, if there are any. -/
def IsTaking : Reply → Prop
  | .takes count => 0 < count
  | .refuses _ => False

/-- The failure that a reply means. -/
inductive FailsFor : Reply → Error → Prop where
  | refuses (cause : Error) : FailsFor (.refuses cause) cause
  | stuck {cause : Error} (h : IsStuck cause) : FailsFor (.takes 0) cause

end Reply

/-- So many bytes were taken in all by the time that the given replies are left: each of the replies
before them was to take some, and there was one if there was anything to be taken. -/
def TakenUpTo (replies rest : List Reply) (size : Nat) : Prop :=
  ∃ used, replies = used ++ rest ∧ (∀ reply ∈ used, reply.IsTaking) ∧
    used.length ≤ size ∧ (size ≠ 0 → used = [] → replies = [])

/-- The first of some replies that is not to take bytes means the given failure. -/
def FirstFails (replies : List Reply) (cause : Error) : Prop :=
  ∃ front reply rest, replies = front ++ reply :: rest ∧ (∀ reply ∈ front, reply.IsTaking) ∧
    reply.FailsFor cause

section Replies

variable {replies rest : List Reply} {reply : Reply} {size more : Nat} {first : Option Error}
  {cause : Error}

private theorem TakenUpTo.of_nil (h : TakenUpTo replies [] size) (hmore : size ≤ more) :
    TakenUpTo replies [] more := by
  obtain ⟨used, rfl, htaking, hlength, -⟩ := h
  refine ⟨used, rfl, htaking, Nat.le_trans hlength hmore, ?_⟩
  rintro - rfl
  rfl

private theorem TakenUpTo.next (h : TakenUpTo replies (reply :: rest) size)
    (hreply : reply.IsTaking) (hmore : size < more) : TakenUpTo replies rest more := by
  obtain ⟨used, rfl, htaking, hlength, -⟩ := h
  refine ⟨used ++ [reply], (List.append_cons ..), ?_, ?_, ?_⟩
  · exact List.forall_mem_append.mpr ⟨htaking, List.forall_mem_singleton.mpr hreply⟩
  · rw [List.length_append, List.length_singleton]
    omega
  · intro _ hnil
    exact absurd hnil (List.append_ne_nil_of_right_ne_nil used (List.cons_ne_nil _ _))

/-- If nothing was taken, all replies are left. -/
theorem TakenUpTo.eq_of_size_eq_zero (h : TakenUpTo replies rest 0) : rest = replies := by
  obtain ⟨used, rfl, -, hlength, -⟩ := h
  rw [List.eq_nil_of_length_eq_zero (Nat.le_zero.mp hlength), List.nil_append]

/-- Nothing is taken if the first reply refuses it. -/
theorem TakenUpTo.size_eq_zero_of_refuses (h : TakenUpTo (.refuses cause :: replies) rest size) :
    size = 0 := by
  obtain ⟨used, hused, htaking, -, hnone⟩ := h
  cases used with
  | nil =>
    by_contra hne
    cases hnone hne rfl
  | cons first more =>
    cases hused
    exact (htaking _ List.mem_cons_self).elim

/-- The first reply that refuses something is the first one that fails. -/
theorem firstFails_refuses_iff {other : Error} :
    FirstFails (.refuses cause :: replies) other ↔ other = cause := by
  constructor
  · rintro ⟨front, reply, rest, hreplies, htaking, hfails⟩
    cases front with
    | nil =>
      cases hreplies
      cases hfails
      rfl
    | cons first more =>
      cases hreplies
      exact (htaking _ List.mem_cons_self).elim
  · rintro rfl
    exact ⟨[], _, replies, rfl, List.forall_mem_nil _, .refuses _⟩

private theorem firstFails_or (hreply : reply.FailsFor cause)
    (h : first.elim (TakenUpTo replies (reply :: rest) size) (FirstFails replies)) :
    (first.or (some cause)).elim (TakenUpTo replies rest more) (FirstFails replies) := by
  cases first with
  | some e => exact h
  | none =>
    obtain ⟨used, rfl, htaking, -⟩ := h
    exact ⟨used, reply, rest, rfl, htaking, hreply⟩

end Replies

namespace Tree

/-- An account of a file that was put on a tree and answers writes with the given replies:
everything else is left alone. -/
def Replied (tree : Tree) (location : Location) (replies : List Reply) (first : Option Error)
    (s : List Reply × Tree) (held : ByteArray) : Prop :=
  tree.Replaced location held s.2 ∧
    first.elim (TakenUpTo replies s.1 held.size) (FirstFails replies)

private theorem perform_writeAnswered_nil (location : Location) (bytes : ByteArray) (tree : Tree) :
    Files.perform (writeAnswered location bytes : ExceptT Error Answered Nat) ([], tree) =
      Files.perform (below (Store.write location bytes) : ExceptT Error Answered Nat) ([], tree) :=
  perform_get_bind _ _ _

private theorem perform_writeAnswered_takes (location : Location) (bytes : ByteArray) (count : Nat)
    (rest : List Reply) (tree : Tree) :
    Files.perform (writeAnswered location bytes : ExceptT Error Answered Nat)
        (.takes count :: rest, tree) =
      Files.perform (below (Store.write location (bytes.extract 0 count)) :
        ExceptT Error Answered Nat) (rest, tree) :=
  (perform_get_bind _ _ _).trans (perform_set_bind _ _ _ _)

private theorem perform_writeAnswered_refuses (location : Location) (bytes : ByteArray)
    (cause : Error) (rest : List Reply) (tree : Tree) :
    Files.perform (writeAnswered location bytes : ExceptT Error Answered Nat)
        (.refuses cause :: rest, tree) = (.error cause, (rest, tree)) :=
  ((perform_get_bind _ _ _).trans (perform_set_bind _ _ _ _)).trans
    (perform_liftExcept (.error cause) _)

private theorem extract_size_extract (bytes : ByteArray) (count : Nat) :
    bytes.extract 0 (bytes.extract 0 count).size = bytes.extract 0 count := by
  have hsize : (bytes.extract 0 count).size = min count bytes.size := by
    rw [ByteArray.size_extract, Nat.sub_zero]
  have hwhole := ByteArray.extract_zero_size (b := bytes.extract 0 count)
  rwa [ByteArray.extract_extract, Nat.zero_add, Nat.zero_add, Nat.min_eq_left (by omega)] at hwhole

/-- A tree is opened and read as it is, whatever its files answer to writes. -/
theorem opensTree_answered (replies : List Reply) : OpensTree Answered (Prod.mk replies) where
  openInput tree path := perform_below (opensTree.openInput tree path) replies
  readAll tree location := perform_below (opensTree.readAll tree location) replies
  openOutput_of_error h := perform_below (opensTree.openOutput_of_error h) replies
  openOutput_of_ok h := perform_below (opensTree.openOutput_of_ok h) replies

/-- A file of a tree that answers writes takes what the replies say. -/
theorem accounts_replied (tree : Tree) (location : Location) (replies : List Reply) :
    Accounts Answered location (tree.Replied location replies) := by
  rintro first ⟨left, after⟩ held bytes hne ⟨hheld, hfirst⟩
  have hwrite (part : ByteArray) (rest : List Reply) :
      Files.perform (below (Store.write location part) : ExceptT Error Answered Nat)
          (rest, after) =
        (.ok part.size, (rest, after.put location (.file (held ++ part)))) := by
    have htaken := perform_write_of_ok part hheld.content_self
    rw [← perform_eq] at htaken
    exact perform_below htaken rest
  change Takes _ _ _ _ (Files.perform (writeAnswered location bytes) (left, after))
  cases left with
  | nil =>
    rw [perform_writeAnswered_nil, hwrite]
    refine .some (Nat.pos_of_ne_zero hne) (Nat.le_refl _) ⟨?_, ?_⟩
    · rw [ByteArray.extract_zero_size]
      exact hheld.put _
    · cases first with
      | none =>
        refine hfirst.of_nil ?_
        rw [ByteArray.size_append]
        exact Nat.le_add_right _ _
      | some e => exact hfirst
  | cons reply rest =>
    cases reply with
    | refuses cause =>
      rw [perform_writeAnswered_refuses]
      exact .refused ⟨hheld, firstFails_or (.refuses cause) hfirst⟩
    | takes count =>
      rw [perform_writeAnswered_takes, hwrite]
      rcases Nat.eq_zero_or_pos count with rfl | hpos
      · rw [ByteArray.extract_same, ByteArray.append_empty]
        exact .none fun cause hstuck ↦ ⟨hheld.put held, firstFails_or (.stuck hstuck) hfirst⟩
      · have hsize : (bytes.extract 0 count).size = min count bytes.size := by
          rw [ByteArray.size_extract, Nat.sub_zero]
        refine .some (by omega) (by omega) ?_
        rw [extract_size_extract]
        refine ⟨hheld.put _, ?_⟩
        cases first with
        | none =>
          refine hfirst.next hpos ?_
          rw [ByteArray.size_append]
          omega
        | some e => exact hfirst

end Tree

end BootConfig.Files
