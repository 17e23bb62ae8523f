import Mathlib.Data.List.Basic
import Mathlib.Data.Nat.Notation

/-! # Taking turns

Lists that are taken from in turns, one element each time round, until all are empty.
Every list gives all its elements, in its own order. -/

namespace ECM.Lib.RoundRobin

variable {α : Type}

/-- The first elements of the lists, the first list having the number `i`. -/
def heads (i : ℕ) : List (List α) → List (ℕ × α)
  | [] => []
  | [] :: lists => heads (i + 1) lists
  | (a :: _) :: lists => (i, a) :: heads (i + 1) lists

/-- `n` times round. -/
def turns (i : ℕ) : (n : ℕ) → List (List α) → List (ℕ × α)
  | 0, _ => []
  | n + 1, lists => heads i lists ++ turns i n (lists.map List.tail)

/-- The elements that came from the list with the number `k`. -/
def ofList (k : ℕ) (taken : List (ℕ × α)) : List α := (taken.filter (·.1 = k)).map (·.2)

theorem ofList_append (k : ℕ) (as bs : List (ℕ × α)) : ofList k (as ++ bs) = ofList k as ++ ofList k bs := by
  rw [ofList, List.filter_append, List.map_append]
  rfl

theorem le_of_mem_heads {p : ℕ × α} : ∀ {i : ℕ} {lists : List (List α)}, p ∈ heads i lists → i ≤ p.1
  | _, [], h => absurd h List.not_mem_nil
  | i, [] :: lists, h => Nat.le_of_succ_le (@le_of_mem_heads p (i + 1) lists h)
  | i, (a :: _) :: lists, h => by
    rcases List.mem_cons.mp h with h | h
    · exact Nat.le_of_eq (congrArg Prod.fst h.symm)
    · exact Nat.le_of_succ_le (le_of_mem_heads h)

theorem ofList_heads_lt {k : ℕ} {i : ℕ} {lists : List (List α)} (h : k < i) : ofList k (heads i lists) = [] := by
  rw [ofList, List.filter_eq_nil_iff.mpr, List.map_nil]
  intro p hp hk
  exact absurd (le_of_mem_heads hp) (by rw [of_decide_eq_true hk]; exact Nat.not_le.mpr h)

/-- One time round takes the first element of each list. -/
theorem ofList_heads : ∀ (i k : ℕ) (lists : List (List α)),
    ofList (i + k) (heads i lists) = ((lists[k]?).getD []).take 1
  | i, k, [] => by
    rw [List.getElem?_nil]
    rfl
  | i, 0, [] :: lists => by
    rw [Nat.add_zero, heads]
    exact ofList_heads_lt (Nat.lt_succ_self i)
  | i, 0, (a :: as) :: lists => by
    have hhead : decide ((i, a).1 = i) = true := decide_eq_true rfl
    rw [heads, ofList, Nat.add_zero, List.filter_cons, if_pos hhead, List.map_cons]
    change a :: ofList i (heads (i + 1) lists) = [a]
    rw [ofList_heads_lt (Nat.lt_succ_self i)]
  | i, k + 1, [] :: lists => by
    rw [heads, List.getElem?_cons_succ, Nat.add_comm k 1, ← Nat.add_assoc]
    exact ofList_heads (i + 1) k lists
  | i, k + 1, (a :: as) :: lists => by
    have hne : ¬decide ((i, a).1 = i + (k + 1)) = true := by
      rw [decide_eq_true_eq]
      exact Nat.ne_of_lt (Nat.lt_add_of_pos_right (Nat.succ_pos k))
    rw [heads, ofList, List.filter_cons, if_neg hne, List.getElem?_cons_succ, Nat.add_comm k 1,
      ← Nat.add_assoc]
    exact ofList_heads (i + 1) k lists

/-- `n` times round take the first `n` elements of each list. -/
theorem ofList_turns (i k : ℕ) : ∀ (n : ℕ) (lists : List (List α)),
    ofList (i + k) (turns i n lists) = ((lists[k]?).getD []).take n
  | 0, lists => (List.take_zero).symm
  | n + 1, lists => by
    rw [turns, ofList_append, ofList_heads, ofList_turns i k n, List.getElem?_map]
    cases lists[k]? with
    | none => rw [Option.map_none, Option.getD_none, List.take_nil, List.take_nil, List.take_nil,
        List.append_nil]
    | some as =>
      cases as with
      | nil =>
        rw [Option.map_some, Option.getD_some, Option.getD_some, List.tail_nil, List.take_nil,
          List.take_nil, List.take_nil]
        rfl
      | cons a as => rfl

/-- The number of times round that empty the lists. -/
def rounds (lists : List (List α)) : ℕ := (lists.map List.length).foldr max 0

theorem length_le_rounds {as : List α} : ∀ {lists : List (List α)}, as ∈ lists → as.length ≤ rounds lists
  | [], h => absurd h List.not_mem_nil
  | bs :: lists, h => by
    rw [rounds, List.map_cons, List.foldr_cons]
    rcases List.mem_cons.mp h with h | h
    · rw [h]
      exact Nat.le_max_left _ _
    · exact Nat.le_trans (length_le_rounds h) (Nat.le_max_right _ _)

/-- Taking turns until all lists are empty. -/
def merge (lists : List (List α)) : List (ℕ × α) := turns 0 (rounds lists) lists

/-- Every list gives all its elements, in its own order. -/
theorem ofList_merge {lists : List (List α)} {k : ℕ} {as : List α} (h : lists[k]? = some as) :
    ofList k (merge lists) = as := by
  have hall := ofList_turns 0 k (rounds lists) lists
  rw [Nat.zero_add, h, Option.getD_some, List.take_of_length_le
    (length_le_rounds (List.mem_of_getElem? h))] at hall
  exact hall

/-- The elements of all lists, those of each list in its own order. -/
structure Interleaves (taken : List (ℕ × α)) (lists : List (List α)) : Prop where
  ofList_eq : ∀ k as, lists[k]? = some as → ofList k taken = as
  inside : ∀ p ∈ taken, p.1 < lists.length

theorem Interleaves.mem {taken : List (ℕ × α)} {lists : List (List α)} (h : Interleaves taken lists)
    {p : ℕ × α} (hp : p ∈ taken) : ∃ as, lists[p.1]? = some as ∧ p.2 ∈ as := by
  have hk : p.1 < lists.length := h.inside p hp
  have hmem : p.2 ∈ ofList p.1 taken :=
    List.mem_map.mpr ⟨p, List.mem_filter.mpr ⟨hp, decide_eq_true rfl⟩, rfl⟩
  rw [h.ofList_eq p.1 _ (List.getElem?_eq_getElem hk)] at hmem
  exact ⟨_, List.getElem?_eq_getElem hk, hmem⟩

theorem lt_of_mem_heads {p : ℕ × α} : ∀ {i : ℕ} {lists : List (List α)}, p ∈ heads i lists →
    p.1 < i + lists.length
  | _, [], h => absurd h List.not_mem_nil
  | i, [] :: lists, h => by
    have hlt := @lt_of_mem_heads p (i + 1) lists h
    rwa [Nat.add_right_comm] at hlt
  | i, (a :: _) :: lists, h => by
    rcases List.mem_cons.mp h with h | h
    · rw [h]
      exact Nat.lt_add_of_pos_right (Nat.succ_pos _)
    · have hlt := lt_of_mem_heads h
      rwa [Nat.add_right_comm] at hlt

theorem lt_of_mem_turns {p : ℕ × α} {i : ℕ} : ∀ {n : ℕ} {lists : List (List α)}, p ∈ turns i n lists →
    p.1 < i + lists.length
  | 0, _, h => absurd h List.not_mem_nil
  | n + 1, lists, h => by
    rcases List.mem_append.mp h with h | h
    · exact lt_of_mem_heads h
    · have hlt := lt_of_mem_turns h
      rwa [List.length_map] at hlt

theorem interleaves_merge (lists : List (List α)) : Interleaves (merge lists) lists := by
  refine ⟨fun k as h => ofList_merge h, fun p hp => ?_⟩
  have hlt := lt_of_mem_turns hp
  rwa [Nat.zero_add] at hlt

/-! ## One time round at a time -/

theorem heads_eq_nil : ∀ {i : ℕ} {lists : List (List α)}, (∀ as ∈ lists, as = []) → heads i lists = []
  | _, [], _ => rfl
  | i, as :: lists, h => by
    rw [h as List.mem_cons_self]
    exact heads_eq_nil (i := i + 1) fun bs hbs => h bs (List.mem_cons_of_mem _ hbs)

theorem turns_eq_nil {i : ℕ} : ∀ (n : ℕ) {lists : List (List α)}, (∀ as ∈ lists, as = []) →
    turns i n lists = []
  | 0, _, _ => rfl
  | n + 1, lists, h => by
    rw [turns, heads_eq_nil h, List.nil_append]
    refine turns_eq_nil n fun as has => ?_
    obtain ⟨bs, hbs, rfl⟩ := List.mem_map.mp has
    rw [h bs hbs]
    rfl

theorem rounds_tail : ∀ lists : List (List α), rounds (lists.map List.tail) = rounds lists - 1
  | [] => rfl
  | as :: lists => by
    have hrest := rounds_tail lists
    rw [rounds, rounds] at hrest ⊢
    rw [List.map_cons, List.map_cons, List.foldr_cons, hrest, List.map_cons, List.foldr_cons,
      List.length_tail]
    exact (Nat.sub_max_sub_right _ _ 1)

theorem eq_nil_of_rounds {lists : List (List α)} (h : rounds lists = 0) : ∀ as ∈ lists, as = [] := by
  intro as has
  have hle := length_le_rounds has
  rw [h] at hle
  exact List.length_eq_zero_iff.mp (Nat.le_zero.mp hle)

/-- Taking turns begins with one time round. -/
theorem merge_step (lists : List (List α)) :
    merge lists = heads 0 lists ++ merge (lists.map List.tail) := by
  rw [merge, merge, rounds_tail]
  cases hrounds : rounds lists with
  | zero =>
    rw [heads_eq_nil (eq_nil_of_rounds hrounds)]
    rfl
  | succ n => rfl

end ECM.Lib.RoundRobin
