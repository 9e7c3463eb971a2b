import Mathlib.Data.List.Perm.Basic
import Colloquy.Memory
import Colloquy.Proofs.Random

/-! Kept replies from their saving on. Every saving has a number, which tells replies apart that read
the same, and a ledger follows these numbers from place to place. -/

namespace Colloquy.Memory

/-- What may be asked of a memory. The reply to be taken is picked by a number. -/
inductive Request where
  | save (reply : String)
  | take (number : Double)
  | clear

/-- The reply that a number picks, if there is any to take, and the memory without it. -/
def fetch (m : Memory) (number : Double) : Except Breakdown (Option String × Memory) :=
  if m.items.isEmpty then .ok (none, m)
  else
    match pickIndex number m.size with
    | .error b => .error b
    | .ok index =>
      match m.take? index.toNat with
      | some (reply, rest) => .ok (some reply, rest)
      | none => .error .outOfRange

def serve (m : Memory) : Request → Except Breakdown (Option String) × Memory
  | .save reply => (.ok none, m.save reply)
  | .take number =>
    match m.fetch number with
    | .ok (reply, rest) => (.ok reply, rest)
    | .error b => (.error b, m)
  | .clear => (.ok none, m.clear)

def after (m : Memory) (requests : List Request) : Memory :=
  requests.foldl (fun m request => (m.serve request).2) m

def given : Except Breakdown (Option String) → List String
  | .ok reply => reply.toList
  | .error _ => []

def answers (m : Memory) : List Request → List String
  | [] => []
  | request :: rest => given (m.serve request).1 ++ answers (m.serve request).2 rest

/-- The replies that are saved by requests, in order. -/
def savings (requests : List Request) : List String :=
  requests.filterMap fun
    | .save reply => some reply
    | _ => none

/-- Replies that may still be held, after one more request. -/
def since (replies : List String) : Request → List String
  | .save reply => replies ++ [reply]
  | .take _ => replies
  | .clear => []

/-- The replies that are saved by requests since the memory was cleared, in order. -/
def recent (requests : List Request) : List String := requests.foldl since []

/-- Where the replies have gone, each by the number of its saving: still held, taken as an answer,
displaced by a later one, or dropped when the memory was cleared. -/
structure Ledger where
  saved : List String
  held : List Nat
  taken : List Nat
  displaced : List Nat
  dropped : List Nat

namespace Ledger

def blank : Ledger := ⟨[], [], [], [], []⟩

/-- Enters a request. The oldest reply is displaced when there is no room for one more. -/
def enter (capacity : Nat) (l : Ledger) : Request → Ledger
  | .save reply =>
    let held := l.held ++ [l.saved.length]
    let saved := l.saved ++ [reply]
    if l.held.length < capacity then { l with saved, held }
    else { l with saved, held := held.tail, displaced := l.displaced ++ held.take 1 }
  | .take number =>
    match pickIndex number l.held.length with
    | .error _ => l
    | .ok index =>
      match l.held[index.toNat]? with
      | some n => { l with held := l.held.eraseIdx index.toNat, taken := l.taken ++ [n] }
      | none => l
  | .clear => { l with held := [], dropped := l.dropped ++ l.held }

def ofRequests (capacity : Nat) (requests : List Request) : Ledger :=
  requests.foldl (enter capacity) blank

def replies (l : Ledger) (numbers : List Nat) : List (Option String) := numbers.map (l.saved[·]?)

/-- Whether every saving is in one place. -/
def Balanced (l : Ledger) : Prop :=
  (l.held ++ l.taken ++ l.displaced ++ l.dropped).Perm (List.range l.saved.length)

variable {l : Ledger} {n : Nat}

theorem Balanced.lt_of_mem (balanced : l.Balanced)
    (member : n ∈ l.held ++ l.taken ++ l.displaced ++ l.dropped) : n < l.saved.length :=
  List.mem_range.mp (balanced.mem_iff.mp member)

/-- The replies of earlier savings stay what they were. -/
theorem replies_append (numbers : List Nat) (reply : String)
    (earlier : ∀ n ∈ numbers, n < l.saved.length) :
    numbers.map ((l.saved ++ [reply])[·]?) = l.replies numbers :=
  List.map_congr_left fun n member => List.getElem?_append_left (earlier n member)

end Ledger

variable {m : Memory} {l : Ledger} {capacity : Nat} {request : Request} {requests : List Request}

/-! What each request does. -/

/-- A reply goes to the end, and the oldest one makes room for it if there is none. -/
theorem save_items (reply : String) (fits : m.size ≤ capacity) (room : m.capacity = capacity) :
    (m.save reply).items =
      if m.size < capacity then m.items ++ [reply] else (m.items ++ [reply]).tail := by
  have excess : (m.items ++ [reply]).length - m.capacity.toNat = m.size + 1 - capacity := by
    simp [room, size]
  simp only [save, excess]
  split
  · next less =>
    have none_ : m.size + 1 - capacity = 0 := by omega
    rw [none_, List.drop_zero]
  · next full =>
    have one : m.size + 1 - capacity = 1 := by omega
    rw [one, List.drop_one]

theorem serve_capacity (m : Memory) (request : Request) :
    (m.serve request).2.capacity = m.capacity := by
  cases request with
  | save reply => rfl
  | clear => rfl
  | take number =>
    simp only [serve, fetch, take?]
    split
    · next taken =>
      split at taken
      · cases taken
        rfl
      · split at taken
        · contradiction
        · split at taken
          · next found =>
            cases taken
            obtain ⟨_, _, same⟩ := Option.map_eq_some_iff.mp found
            cases same
            rfl
          · contradiction
    · rfl

theorem serve_take_empty (empty : m.items = []) (number : Double) :
    m.serve (.take number) = (.ok none, m) := by
  simp [serve, fetch, empty]

/-- A number that picks nothing changes nothing; any other one takes the reply at its position. -/
theorem serve_take (some_ : m.items ≠ []) (number : Double) :
    (∃ b, pickIndex number m.size = .error b ∧ m.serve (.take number) = (.error b, m)) ∨
      ∃ index : Nat, ∃ inside : index < m.items.length, pickIndex number m.size = .ok index ∧
        m.serve (.take number) =
          (.ok (some m.items[index]), { m with items := m.items.eraseIdx index }) := by
  cases picked : pickIndex number m.size with
  | error b => exact .inl ⟨b, rfl, by simp [serve, fetch, some_, picked]⟩
  | ok i =>
    obtain ⟨index, rfl, inside⟩ := pickIndex_inside (List.length_pos_iff.mpr some_) picked
    have found : m.items[index]? = some m.items[index] := List.getElem?_eq_getElem inside
    exact .inr ⟨index, inside, rfl, by simp [serve, fetch, some_, picked, take?, found]⟩

theorem serve_take_unit (some_ : m.items ≠ []) {number : Double} (unit : number.InUnit)
    (held : m.size < countLimit) : ∃ index : Nat, ∃ inside : index < m.items.length,
      m.serve (.take number) =
        (.ok (some m.items[index]), { m with items := m.items.eraseIdx index }) := by
  rcases serve_take some_ number with ⟨b, failed, _⟩ | ⟨index, inside, _, served⟩
  · exact absurd (unit.moderate.scalesTo held) (not_scalesTo_of_error failed)
  · exact ⟨index, inside, served⟩

theorem serve_sublist {replies : List String} (among : m.items.Sublist replies) (request : Request) :
    (m.serve request).2.items.Sublist (since replies request) := by
  cases request with
  | save reply => exact (List.drop_sublist _ _).trans (among.append_right [reply])
  | clear => exact .slnil
  | take number =>
    by_cases empty : m.items = []
    · rw [serve_take_empty empty]
      exact among
    · rcases serve_take empty number with ⟨b, _, served⟩ | ⟨index, _, _, served⟩
      · rw [served]
        exact among
      · rw [served]
        exact (List.eraseIdx_sublist _ _).trans among

/-- What is held stands in the order in which it was saved. -/
theorem after_sublist {replies : List String} (among : m.items.Sublist replies)
    (requests : List Request) : (m.after requests).items.Sublist (requests.foldl since replies) := by
  induction requests generalizing m replies with
  | nil => exact among
  | cons request rest ih => exact ih (serve_sublist among request)

/-- Whether a memory has the room of another one, and no more replies than that one had or has room
for. -/
structure Within (after before : Memory) : Prop where
  capacity : after.capacity = before.capacity
  fits : after.size ≤ max before.size before.capacity.toNat

theorem within_refl (m : Memory) : m.Within m := ⟨rfl, le_max_left _ _⟩

theorem within_save (m : Memory) (reply : String) : (m.save reply).Within m := by
  refine ⟨rfl, le_max_of_le_right ?_⟩
  rw [size, save, List.length_drop]
  omega

theorem within_take {index : Nat} {reply : String} {rest : Memory}
    (taken : m.take? index = some (reply, rest)) : rest.Within m := by
  obtain ⟨_, _, same⟩ := Option.map_eq_some_iff.mp taken
  cases same
  exact ⟨rfl, le_max_of_le_left (List.length_eraseIdx_le _ _)⟩

/-! The memory against its ledger. -/

/-- A memory that holds just the replies that its ledger has as held, oldest first. -/
structure Agrees (capacity : Nat) (l : Ledger) (m : Memory) : Prop where
  room : m.capacity = capacity
  fits : m.size ≤ capacity
  holds : m.items.map some = l.replies l.held
  balanced : l.Balanced
  ordered : l.held.Pairwise (· < ·)

namespace Agrees

theorem start (capacity : Nat) : Agrees capacity .blank (.empty capacity) :=
  ⟨rfl, Nat.zero_le _, rfl, .refl _, .nil⟩

theorem length (agrees : Agrees capacity l m) : l.held.length = m.size := by
  have same := congrArg List.length agrees.holds
  simpa [Ledger.replies, size] using same.symm

/-- A ledger and a memory agree after a saving if they did before: it is numbered by the savings before
it. -/
theorem save (agrees : Agrees capacity l m) (reply : String) :
    Agrees capacity (l.enter capacity (.save reply)) (m.save reply) := by
  have items := save_items reply agrees.fits agrees.room
  have length := agrees.length
  have held : (m.items ++ [reply]).map some =
      (l.held ++ [l.saved.length]).map ((l.saved ++ [reply])[·]?) := by
    have earlier := Ledger.replies_append l.held reply fun n member =>
      agrees.balanced.lt_of_mem (by simp [member])
    rw [List.map_append, List.map_append, earlier, agrees.holds]
    simp
  have ordered : (l.held ++ [l.saved.length]).Pairwise (· < ·) := by
    refine List.pairwise_append.mpr ⟨agrees.ordered, List.pairwise_singleton _ _, ?_⟩
    intro n member k last
    rw [List.mem_singleton.mp last]
    exact agrees.balanced.lt_of_mem (by simp [member])
  have places : (l.held ++ [l.saved.length] ++ l.taken ++ l.displaced ++ l.dropped).Perm
      (List.range (l.saved ++ [reply]).length) := by
    rw [List.length_append, List.length_singleton, List.range_succ]
    refine .trans ?_ (agrees.balanced.append_right [l.saved.length])
    grind
  rw [Ledger.enter, length]
  by_cases less : m.size < capacity
  · rw [if_pos less] at items ⊢
    refine ⟨agrees.room, ?_, ?_, places, ordered⟩
    · rw [size, items, List.length_append]
      exact less
    · rw [items]
      exact held
  · rw [if_neg less] at items ⊢
    have full : m.size = capacity := Nat.le_antisymm agrees.fits (Nat.not_lt.mp less)
    refine ⟨agrees.room, ?_, ?_, ?_, ordered.tail⟩
    · rw [size, items]
      simp [← full, size]
    · rw [items, Ledger.replies, List.map_tail, List.map_tail, held]
    · refine .trans ?_ places
      obtain ⟨oldest, rest, shape⟩ : ∃ oldest rest, l.held ++ [l.saved.length] = oldest :: rest :=
        List.exists_cons_of_ne_nil (by simp)
      rw [shape]
      grind

theorem take (agrees : Agrees capacity l m) (number : Double) :
    Agrees capacity (l.enter capacity (.take number)) (m.serve (.take number)).2 ∧
      l.replies (l.enter capacity (.take number)).taken =
        l.replies l.taken ++ (given (m.serve (.take number)).1).map some := by
  have length := agrees.length
  by_cases empty : m.items = []
  · have nothing : l.held = [] := List.length_eq_zero_iff.mp (by simp [length, size, empty])
    have same : l.enter capacity (.take number) = l := by
      simp only [Ledger.enter, nothing]
      split <;> rfl
    rw [serve_take_empty empty, same]
    exact ⟨agrees, by simp [given]⟩
  · rcases serve_take empty number with ⟨b, failed, served⟩ | ⟨index, inside, picked, served⟩
    · have same : l.enter capacity (.take number) = l := by simp only [Ledger.enter, length, failed]
      rw [served, same]
      exact ⟨agrees, by simp [given]⟩
    · have within : index < l.held.length := length ▸ inside
      have entered : l.enter capacity (.take number) =
          { l with held := l.held.eraseIdx index, taken := l.taken ++ [l.held[index]] } := by
        simp only [Ledger.enter, length, picked, Int.toNat_natCast, List.getElem?_eq_getElem within]
      have reply : l.saved[l.held[index]]? = some m.items[index] := by
        have same := congrArg (·[index]?) agrees.holds
        simpa [Ledger.replies, inside, within] using same.symm
      rw [served, entered]
      refine ⟨⟨agrees.room, ?_, ?_, ?_, ?_⟩, ?_⟩
      · exact (List.length_eraseIdx_le _ _).trans agrees.fits
      · rw [Ledger.replies, ← List.eraseIdx_map, ← List.eraseIdx_map, agrees.holds]
        rfl
      · refine .trans ?_ agrees.balanced
        have moved := List.getElem_cons_eraseIdx_perm within
        grind
      · exact agrees.ordered.sublist (List.eraseIdx_sublist _ _)
      · simp [Ledger.replies, reply, given]

theorem clear (agrees : Agrees capacity l m) :
    Agrees capacity (l.enter capacity .clear) m.clear := by
  refine ⟨agrees.room, Nat.zero_le _, rfl, ?_, .nil⟩
  refine .trans ?_ agrees.balanced
  simp only [Ledger.enter]
  grind

/-- A request leaves memory and ledger in agreement, and what the ledger has as taken grows by the
reply in the answer. -/
theorem serve (agrees : Agrees capacity l m) (request : Request) :
    Agrees capacity (l.enter capacity request) (m.serve request).2 ∧
      (l.enter capacity request).replies (l.enter capacity request).taken =
        l.replies l.taken ++ (given (m.serve request).1).map some := by
  cases request with
  | save reply =>
    have same : (l.enter capacity (.save reply)).saved = l.saved ++ [reply] ∧
        (l.enter capacity (.save reply)).taken = l.taken := by
      rw [Ledger.enter]
      split <;> exact ⟨rfl, rfl⟩
    have earlier := Ledger.replies_append l.taken reply fun n member =>
      agrees.balanced.lt_of_mem (by simp [member])
    refine ⟨agrees.save reply, ?_⟩
    rw [Ledger.replies, same.1, same.2, earlier]
    simp [Memory.serve, given]
  | take number =>
    obtain ⟨kept, taken⟩ := agrees.take number
    have same : (l.enter capacity (.take number)).saved = l.saved := by
      rw [Ledger.enter]
      split
      · rfl
      · split <;> rfl
    rw [Ledger.replies, same]
    exact ⟨kept, taken⟩
  | clear => exact ⟨agrees.clear, by simp [Memory.serve, given, Ledger.enter, Ledger.replies]⟩

end Agrees

/-! Requests one after the other. -/

theorem Ledger.enter_saved (capacity : Nat) (l : Ledger) (request : Request) :
    (l.enter capacity request).saved = l.saved ++ savings [request] := by
  cases request with
  | save reply =>
    rw [enter]
    split <;> rfl
  | take number =>
    simp only [enter, savings, List.filterMap_cons, List.filterMap_nil, List.append_nil]
    split
    · rfl
    · split <;> rfl
  | clear => simp [enter, savings]

/-- A ledger and a memory still agree after any requests, and on the answers to them. -/
theorem agrees_after (agrees : Agrees capacity l m) (requests : List Request) :
    Agrees capacity (requests.foldl (Ledger.enter capacity) l) (m.after requests) ∧
      (requests.foldl (Ledger.enter capacity) l).saved = l.saved ++ savings requests ∧
      (requests.foldl (Ledger.enter capacity) l).replies
          (requests.foldl (Ledger.enter capacity) l).taken =
        l.replies l.taken ++ (m.answers requests).map some := by
  induction requests generalizing l m with
  | nil => simpa [after, savings, answers] using agrees
  | cons request rest ih =>
    obtain ⟨kept, taken⟩ := agrees.serve request
    obtain ⟨finally_, saved, answered⟩ := ih kept
    refine ⟨finally_, ?_, ?_⟩
    · rw [List.foldl_cons, saved, Ledger.enter_saved, List.append_assoc]
      simp [savings, ← List.filterMap_append]
    · rw [List.foldl_cons, answered, taken, answers, List.map_append, List.append_assoc]

/-- A memory of some size after requests, with the ledger of them: it holds no more than it has room
for, in the order of saving, and every saving is in one place. Only a full memory displaces a reply,
and that is the oldest one, which is the new one itself where there is no room at all. Only an empty
memory has no answer. -/
structure Accounted (capacity : Nat) (requests : List Request) (l : Ledger) (m : Memory) : Prop where
  fits : m.size ≤ capacity
  among : m.items.Sublist (recent requests)
  saved : l.saved = savings requests
  balanced : l.Balanced
  ordered : l.held.Pairwise (· < ·)
  held : l.replies l.held = m.items.map some
  taken : l.replies l.taken = ((empty capacity).answers requests).map some
  save : ∀ reply, (m.save reply).items =
    if m.size < capacity then m.items ++ [reply] else (m.items ++ [reply]).tail
  take : ∀ number, number.InUnit → m.size < countLimit →
    if m.items = [] then m.serve (.take number) = (.ok none, m)
    else ∃ index : Nat, ∃ inside : index < m.items.length, m.serve (.take number) =
      (.ok (some m.items[index]), { m with items := m.items.eraseIdx index })

/-- After any requests every saving is accounted for. -/
theorem accounted (capacity : Nat) (requests : List Request) :
    Accounted capacity requests (.ofRequests capacity requests) ((empty capacity).after requests) := by
  obtain ⟨agrees, saved, answered⟩ := agrees_after (.start capacity) requests
  refine ⟨agrees.fits, after_sublist (.refl []) requests, saved, agrees.balanced, agrees.ordered,
    agrees.holds.symm, answered, fun reply => save_items reply agrees.fits agrees.room, ?_⟩
  intro number unit held
  split
  · next empty => exact serve_take_empty empty number
  · next some_ => exact serve_take_unit some_ unit held

namespace Ledger

theorem Balanced.taken_nodup (balanced : l.Balanced) : l.taken.Nodup := by
  have distinct := balanced.nodup_iff.mpr List.nodup_range
  have places := (List.nodup_append.mp (List.nodup_append.mp distinct).1).1
  exact (List.nodup_append.mp places).2.1

end Ledger
end Colloquy.Memory
