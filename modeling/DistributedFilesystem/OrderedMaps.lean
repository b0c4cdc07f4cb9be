import Mathlib.Algebra.Order.BigOperators.Group.Finset
import Mathlib.Algebra.Order.Ring.Int
import Mathlib.Data.Finset.Max
import Mathlib.Logic.Function.Iterate

/-!
# Ordered maps that change while they are traversed

A map with finitely many keys in a linear order, and an iterator that stands at
a key or at the end.  The loop below moves entries to other keys while it
traverses the map: it assigns the new key, erases the current one, and goes on
with the next key that the map has then.  A new key may lie before or after the
iterator, so the loop may meet an entry that it moved.

If no new key is to be moved again, then the loop ends, and every entry was
moved once.
-/

/-- A map with finitely many keys. -/
structure OrderedMap (Key Value : Type*) where
  lookup : Key → Option Value
  keys : Finset Key
  mem_keys : ∀ {key}, key ∈ keys ↔ lookup key ≠ none

namespace OrderedMap

variable {Key Value : Type*}

/-- The map without entries. -/
def empty : OrderedMap Key Value where
  lookup _ := none
  keys := ∅
  mem_keys := by simp

variable [LinearOrder Key] (map : OrderedMap Key Value)

/-- The iterator at the first entry; `⊤` is the end. -/
def first : WithTop Key :=
  map.keys.min

/-- The iterator at the entry that follows a key. -/
def after (key : Key) : WithTop Key :=
  (map.keys.filter (key < ·)).min

/-- `map[key] = value` -/
def assign (key : Key) (value : Value) : OrderedMap Key Value where
  lookup := Function.update map.lookup key (some value)
  keys := insert key map.keys
  mem_keys := by
    intro other
    by_cases same : other = key
    · simp [same]
    · simp [same, map.mem_keys]

/-- `map.erase(key)` -/
def erase (key : Key) : OrderedMap Key Value where
  lookup := Function.update map.lookup key none
  keys := map.keys.erase key
  mem_keys := by
    intro other
    by_cases same : other = key
    · simp [same]
    · simp [same, map.mem_keys]

/-- What entries that are assigned one after the other add to the keys. -/
theorem mem_keys_foldl_assign (entries : List (Key × Value)) (key : Key) :
    key ∈ (entries.foldl (fun map entry => map.assign entry.1 entry.2) map).keys ↔
      key ∈ map.keys ∨ ∃ value, (key, value) ∈ entries := by
  induction entries generalizing map with
  | nil => simp
  | cons entry entries ih =>
      rw [List.foldl_cons, ih]
      simp only [assign, Finset.mem_insert, List.mem_cons, exists_or,
        Prod.ext_iff, exists_and_left, exists_eq, and_true]
      tauto

variable (target : Key → Option Key)

/-- One turn of the loop: move the entry at the iterator if it has a target, and
go on with the next entry. -/
def rekeyStep :
    OrderedMap Key Value × WithTop Key → OrderedMap Key Value × WithTop Key
  | (map, ⊤) => (map, ⊤)
  | (map, (key : Key)) =>
      match target key, map.lookup key with
      | some newKey, some value =>
          let map := (map.assign newKey value).erase key
          (map, map.after key)
      | _, _ => (map, map.after key)

/-- The loop after so many turns. -/
def rekeyTurns (turns : Nat) : OrderedMap Key Value × WithTop Key :=
  (rekeyStep target)^[turns] (map, map.first)

/-- The loop ends, and this is the map that it leaves. -/
def Rekeys (final : OrderedMap Key Value) : Prop :=
  ∃ turns, map.rekeyTurns target turns = (final, ⊤)

/-- What the loop leaves after at most so many turns, if it has ended then. -/
def rekey (turns : Nat) : Option (OrderedMap Key Value) :=
  if (map.rekeyTurns target turns).2 = ⊤ then
    some (map.rekeyTurns target turns).1
  else none

variable {map target}

theorem rekeys_of_rekey {final : OrderedMap Key Value} {turns : Nat}
    (ends : map.rekey target turns = some final) : map.Rekeys target final := by
  unfold rekey at ends
  split at ends
  · next atEnd =>
      obtain rfl := Option.some.inj ends
      exact ⟨turns, Prod.ext rfl atEnd⟩
  · simp at ends

section Iterators

variable {key other : Key}

theorem lookup_of_lt_first (before : (key : WithTop Key) < map.first) :
    map.lookup key = none := by
  by_contra present
  have least := Finset.min_le (map.mem_keys.mpr present)
  exact absurd before (not_lt.mpr least)

theorem lt_after : (key : WithTop Key) < map.after key := by
  cases next : map.after key with
  | top => exact WithTop.coe_lt_top key
  | coe later =>
      have member := Finset.mem_of_min next
      exact WithTop.coe_lt_coe.mpr (Finset.mem_filter.mp member).2

/-- There is nothing between a key and the iterator after it. -/
theorem lookup_of_between (later : key < other)
    (before : (other : WithTop Key) < map.after key) :
    map.lookup other = none := by
  by_contra present
  have member : other ∈ map.keys.filter (key < ·) :=
    Finset.mem_filter.mpr ⟨map.mem_keys.mpr present, later⟩
  exact absurd before (not_lt.mpr (Finset.min_le member))

theorem mem_keys_of_after (next : map.after key = (other : WithTop Key)) :
    other ∈ map.keys :=
  (Finset.mem_filter.mp (Finset.mem_of_min next)).1

end Iterators

section Turns

variable {key newKey : Key} {value : Value}

theorem rekeyStep_of_moved (moves : target key = some newKey)
    (present : map.lookup key = some value) :
    rekeyStep target (map, (key : WithTop Key)) =
      ((map.assign newKey value).erase key,
        ((map.assign newKey value).erase key).after key) := by
  simp only [rekeyStep, moves, present]

theorem rekeyStep_of_kept (stays : target key = none) :
    rekeyStep target (map, (key : WithTop Key)) = (map, map.after key) := by
  simp only [rekeyStep, stays]

/-- An iterator stands at an entry or at the end. -/
def Standing (state : OrderedMap Key Value × WithTop Key) : Prop :=
  ∀ key : Key, state.2 = key → key ∈ state.1.keys

theorem standing_first (map : OrderedMap Key Value) :
    Standing (map, map.first) := by
  intro key isFirst
  exact Finset.mem_of_min isFirst

/-- What a turn does to an iterator that stands at an entry. -/
inductive Turn (target : Key → Option Key)
    (state state' : OrderedMap Key Value × WithTop Key) : Prop
  | ended (atEnd : state.2 = ⊤) (same : state' = state)
  | moved (key newKey : Key) (value : Value) (isAt : state.2 = key)
      (moves : target key = some newKey)
      (present : state.1.lookup key = some value)
      (map : state'.1 = (state.1.assign newKey value).erase key)
      (next : state'.2 = state'.1.after key)
  | kept (key : Key) (isAt : state.2 = key) (stays : target key = none)
      (map : state'.1 = state.1) (next : state'.2 = state'.1.after key)

theorem turn_rekeyStep {state : OrderedMap Key Value × WithTop Key}
    (standing : Standing state) : Turn target state (rekeyStep target state) := by
  obtain ⟨map, position⟩ := state
  cases position with
  | top => exact .ended rfl rfl
  | coe key =>
      cases moves : target key with
      | none =>
          rw [rekeyStep_of_kept moves]
          exact .kept key rfl moves rfl rfl
      | some newKey =>
          have isKey := map.mem_keys.mp (standing key rfl)
          obtain ⟨value, present⟩ := Option.ne_none_iff_exists'.mp isKey
          rw [rekeyStep_of_moved moves present]
          exact .moved key newKey value rfl moves present rfl rfl

theorem standing_of_turn {state state' : OrderedMap Key Value × WithTop Key}
    (standing : Standing state) (turn : Turn target state state') :
    Standing state' := by
  cases turn with
  | ended atEnd same => rwa [same]
  | moved key newKey value isAt moves present map next =>
      intro other isNext
      exact mem_keys_of_after (next.symm.trans isNext)
  | kept key isAt stays map next =>
      intro other isNext
      exact mem_keys_of_after (next.symm.trans isNext)

/-- What every turn preserves holds after any number of turns. -/
theorem invariant_of_rekeyTurns
    (invariant : OrderedMap Key Value × WithTop Key → Prop)
    (initially : invariant (map, map.first))
    (keeps : ∀ state state', Turn target state state' → invariant state →
      invariant state') (turns : Nat) :
    invariant (map.rekeyTurns target turns) ∧
      Standing (map.rekeyTurns target turns) := by
  induction turns with
  | zero => exact ⟨initially, standing_first map⟩
  | succ turns ih =>
      rw [rekeyTurns, Function.iterate_succ_apply', ← rekeyTurns]
      have turn : Turn target _ _ := turn_rekeyStep ih.2
      exact ⟨keeps _ _ turn ih.1, standing_of_turn ih.2 turn⟩

end Turns

section Ends

variable {state state' : OrderedMap Key Value × WithTop Key}

/-- The keys that the iterator has not passed. -/
def keysAhead (state : OrderedMap Key Value × WithTop Key) : Finset Key :=
  state.1.keys.filter fun key : Key => state.2 ≤ (key : WithTop Key)

theorem first_le {key : Key} (isKey : key ∈ map.keys) :
    map.first ≤ (key : WithTop Key) :=
  Finset.min_le isKey

theorem after_le {key other : Key} (isKey : other ∈ map.keys)
    (later : key < other) : map.after key ≤ (other : WithTop Key) :=
  Finset.min_le (Finset.mem_filter.mpr ⟨isKey, later⟩)

/-- What a turn leaves ahead of the iterator was ahead of it before, or is what
it has moved there. -/
theorem mem_keysAhead_of_turn (turn : Turn target state state') {key : Key}
    (isAt : state.2 = key) {other : Key} (isAhead : other ∈ keysAhead state') :
    other ∈ (keysAhead state).erase key ∨
      target key = some other ∧ key < other := by
  obtain ⟨isKey, notPassed⟩ := Finset.mem_filter.mp isAhead
  have behind : state'.2 = state'.1.after key → key < other := by
    intro next
    rw [next] at notPassed
    exact WithTop.coe_lt_coe.mp (lt_after.trans_le notPassed)
  have stays : key < other → other ∈ state.1.keys →
      other ∈ (keysAhead state).erase key := by
    intro later wasKey
    refine Finset.mem_erase.mpr ⟨later.ne', Finset.mem_filter.mpr ⟨wasKey, ?_⟩⟩
    rw [isAt]
    exact WithTop.coe_le_coe.mpr later.le
  cases turn with
  | ended atEnd _ => exact absurd (isAt.symm.trans atEnd) (by simp)
  | moved key' newKey value isAt' moves present map next =>
      obtain rfl : key' = key := WithTop.coe_inj.mp (isAt'.symm.trans isAt)
      have later := behind next
      rw [map] at isKey
      have inMap := Finset.mem_of_mem_erase isKey
      rcases Finset.mem_insert.mp inMap with rfl | wasKey
      · exact .inr ⟨moves, later⟩
      · exact .inl (stays later wasKey)
  | kept key' isAt' _ map next =>
      obtain rfl : key' = key := WithTop.coe_inj.mp (isAt'.symm.trans isAt)
      rw [map] at isKey
      exact .inl (stays (behind next) isKey)

/-- How much the loop has ahead of it. -/
def load (weight : Key → Nat) (state : OrderedMap Key Value × WithTop Key) :
    Nat :=
  ∑ key ∈ keysAhead state, (weight key + 1)

variable (good : Key → Prop) (weight : Key → Nat)

/-- A turn at a good key decreases the load, and leaves good keys ahead. -/
theorem load_lt_of_turn
    (lighter : ∀ {key newKey}, good key → target key = some newKey →
      newKey ≤ key ∨ good newKey ∧ weight newKey < weight key)
    (turn : Turn target state state') (standing : Standing state)
    (allGood : ∀ key ∈ keysAhead state, good key) {key : Key}
    (isAt : state.2 = key) :
    load weight state' < load weight state ∧
      ∀ other ∈ keysAhead state', good other := by
  have member : key ∈ keysAhead state :=
    Finset.mem_filter.mpr ⟨standing key isAt, isAt.le⟩
  have isGood := allGood key member
  have sum := Finset.add_sum_erase (keysAhead state) (fun key => weight key + 1)
    member
  have split : ∀ other ∈ keysAhead state', _ :=
    fun other isAhead => mem_keysAhead_of_turn turn isAt isAhead
  by_cases goesAhead : ∃ newKey, target key = some newKey ∧ key < newKey
  · obtain ⟨newKey, moves, later⟩ := goesAhead
    obtain ⟨newGood, less⟩ :=
      (lighter isGood moves).resolve_left (not_le.mpr later)
    have subset : keysAhead state' ⊆ insert newKey ((keysAhead state).erase key) := by
      intro other isAhead
      rcases split other isAhead with wasAhead | ⟨isNew, -⟩
      · exact Finset.mem_insert_of_mem wasAhead
      · obtain rfl := Option.some.inj (moves.symm.trans isNew)
        exact Finset.mem_insert_self ..
    constructor
    · have atMost := Finset.sum_le_sum_of_subset (f := fun key => weight key + 1)
        subset
      have inserted : ∑ other ∈ insert newKey ((keysAhead state).erase key),
          (weight other + 1) ≤
            weight newKey + 1 +
              ∑ other ∈ (keysAhead state).erase key, (weight other + 1) := by
        by_cases already : newKey ∈ (keysAhead state).erase key
        · rw [Finset.insert_eq_self.mpr already]
          exact Nat.le_add_left ..
        · rw [Finset.sum_insert already]
      unfold load
      omega
    · intro other isAhead
      rcases Finset.mem_insert.mp (subset isAhead) with rfl | wasAhead
      · exact newGood
      · exact allGood other (Finset.mem_of_mem_erase wasAhead)
  · have subset : keysAhead state' ⊆ (keysAhead state).erase key := by
      intro other isAhead
      rcases split other isAhead with wasAhead | isNew
      · exact wasAhead
      · exact absurd ⟨other, isNew⟩ goesAhead
    constructor
    · have atMost := Finset.sum_le_sum_of_subset (f := fun key => weight key + 1)
        subset
      unfold load
      omega
    · intro other isAhead
      exact allGood other (Finset.mem_of_mem_erase (subset isAhead))

/-- The loop ends if every entry that it moves ahead of itself gets lighter. -/
theorem exists_rekeys_of_lighter
    (lighter : ∀ {key newKey}, good key → target key = some newKey →
      newKey ≤ key ∨ good newKey ∧ weight newKey < weight key)
    (initially : ∀ key ∈ map.keys, good key) :
    ∃ final, map.Rekeys target final := by
  have ends : ∀ bound (state : OrderedMap Key Value × WithTop Key),
      Standing state → (∀ key ∈ keysAhead state, good key) →
        load weight state ≤ bound →
          ∃ turns, ((rekeyStep target)^[turns] state).2 = ⊤ := by
    intro bound
    induction bound with
    | zero =>
        intro state standing _ empty
        cases position : state.2 with
        | top => exact ⟨0, position⟩
        | coe key =>
            have member : key ∈ keysAhead state :=
              Finset.mem_filter.mpr ⟨standing key position, position.le⟩
            have sum := Finset.add_sum_erase (keysAhead state)
              (fun key => weight key + 1) member
            unfold load at empty
            omega
    | succ bound ih =>
        intro state standing allGood atMost
        cases position : state.2 with
        | top => exact ⟨0, position⟩
        | coe key =>
            have turn : Turn target state (rekeyStep target state) :=
              turn_rekeyStep standing
            obtain ⟨less, stillGood⟩ := load_lt_of_turn good weight lighter turn
              standing allGood position
            obtain ⟨turns, atEnd⟩ := ih _ (standing_of_turn standing turn)
              stillGood (by omega)
            exact ⟨turns + 1, atEnd⟩
  obtain ⟨turns, atEnd⟩ := ends _ (map, map.first) (standing_first map)
    (fun key isAhead => initially key (Finset.mem_filter.mp isAhead).1) le_rfl
  exact ⟨(map.rekeyTurns target turns).1, turns, Prod.ext rfl atEnd⟩

/-- The loop does not end if it moves an entry ahead of itself again and
again. -/
theorem not_rekeys_of_growing {bad : Key → Prop}
    (grows : ∀ {key}, bad key →
      ∃ newKey, target key = some newKey ∧ key < newKey ∧ bad newKey)
    {key : Key} (isBad : bad key) (isKey : key ∈ map.keys)
    (final : OrderedMap Key Value) : ¬ map.Rekeys target final := by
  rintro ⟨turns, ends⟩
  have keeps : ∀ state state' : OrderedMap Key Value × WithTop Key,
      Turn target state state' → (∃ key ∈ keysAhead state, bad key) →
        ∃ key ∈ keysAhead state', bad key := by
    rintro state state' turn ⟨key, isAhead, isBad⟩
    obtain ⟨isKey, notPassed⟩ := Finset.mem_filter.mp isAhead
    obtain ⟨newKey, moves, later, newBad⟩ := grows isBad
    have goesOn : ∀ {position other : Key}, state'.2 = state'.1.after position →
        other ∈ state'.1.keys → position < other → other ∈ keysAhead state' := by
      intro position other next stays behind
      refine Finset.mem_filter.mpr ⟨stays, ?_⟩
      rw [next]
      exact after_le stays behind
    cases turn with
    | ended _ same =>
        rw [same]
        exact ⟨key, isAhead, isBad⟩
    | moved position moved value isAt movesAt present map next =>
        rw [isAt] at notPassed
        rcases (WithTop.coe_le_coe.mp notPassed).eq_or_lt with rfl | behind
        · obtain rfl := Option.some.inj (movesAt.symm.trans moves)
          refine ⟨moved, goesOn next ?_ later, newBad⟩
          rw [map]
          exact Finset.mem_erase.mpr ⟨later.ne', Finset.mem_insert_self ..⟩
        · refine ⟨key, goesOn next ?_ behind, isBad⟩
          rw [map]
          exact Finset.mem_erase.mpr
            ⟨behind.ne', Finset.mem_insert_of_mem isKey⟩
    | kept position isAt stays map next =>
        rw [isAt] at notPassed
        rcases (WithTop.coe_le_coe.mp notPassed).eq_or_lt with rfl | behind
        · exact absurd (stays.symm.trans moves) (by simp)
        · refine ⟨key, goesOn next ?_ behind, isBad⟩
          rwa [map]
  have initially : ∃ key ∈ keysAhead (map, map.first), bad key :=
    ⟨key, Finset.mem_filter.mpr ⟨isKey, first_le isKey⟩, isBad⟩
  obtain ⟨left, isAhead, -⟩ := (invariant_of_rekeyTurns
    (fun state => ∃ key ∈ keysAhead state, bad key) initially keeps turns).1
  rw [ends] at isAhead
  exact absurd (Finset.mem_filter.mp isAhead).2 (by simp)

end Ends

section Relocation

/-- `source` inverts `target`, and what was moved is not to be moved again. -/
structure Relocation (target source : Key → Option Key) : Prop where
  target_iff : ∀ {key newKey},
    target key = some newKey ↔ source newKey = some key
  settled : ∀ {key newKey}, target key = some newKey → target newKey = none

/-- The entries once those before the iterator are moved. -/
def relocated (target source : Key → Option Key)
    (lookup : Key → Option Value) (position : WithTop Key) (key : Key) :
    Option Value :=
  match source key with
  | some oldKey =>
      if (oldKey : WithTop Key) < position then (lookup oldKey).or (lookup key)
      else lookup key
  | none =>
      if (target key).isSome ∧ (key : WithTop Key) < position then none
      else lookup key

variable {source : Key → Option Key} {lookup : Key → Option Value}

omit [LinearOrder Key] in
theorem Relocation.source_eq_none (relocation : Relocation target source)
    {key : Key} (moves : target key ≠ none) : source key = none := by
  cases isSource : source key with
  | none => rfl
  | some oldKey =>
      exact absurd (relocation.settled (relocation.target_iff.mpr isSource)) moves

/-- What is to be moved and has not been is still where it was. -/
theorem relocated_of_target (relocation : Relocation target source)
    {key : Key} {position : WithTop Key} (moves : target key ≠ none)
    (notBefore : position ≤ (key : WithTop Key)) :
    relocated target source lookup position key = lookup key := by
  simp [relocated, relocation.source_eq_none moves, not_lt.mpr notBefore]

/-- Nothing changes for the other entries when the iterator goes on and passes
nothing that is to be moved. -/
theorem relocated_advance (relocation : Relocation target source) {key other : Key}
    {next : WithTop Key} (later : (key : WithTop Key) < next)
    (nothing : ∀ between, target between ≠ none → key < between →
      (between : WithTop Key) < next → lookup between = none)
    (notMoved : source other ≠ some key) (notSelf : target other ≠ none →
      other ≠ key) :
    relocated target source lookup next other =
      relocated target source lookup key other := by
  unfold relocated
  cases isSource : source other with
  | some oldKey =>
      have moves : target oldKey ≠ none := by
        simp [relocation.target_iff.mpr isSource]
      have apart : oldKey ≠ key := by
        rintro rfl
        exact notMoved isSource
      dsimp only
      rcases lt_or_gt_of_ne apart with before | behind
      · have coe : (oldKey : WithTop Key) < key := WithTop.coe_lt_coe.mpr before
        rw [if_pos (coe.trans later), if_pos coe]
      · have coe : ¬ (oldKey : WithTop Key) < key :=
          not_lt.mpr (WithTop.coe_le_coe.mpr behind.le)
        rw [if_neg coe]
        split
        · next passed => simp [nothing oldKey moves behind passed]
        · rfl
  | none =>
      dsimp only
      cases moves : target other with
      | none => simp
      | some newKey =>
          have apart := notSelf (by simp [moves])
          rcases lt_or_gt_of_ne apart with before | behind
          · have coe : (other : WithTop Key) < key :=
              WithTop.coe_lt_coe.mpr before
            simp [coe, coe.trans later]
          · have coe : ¬ (other : WithTop Key) < key :=
              not_lt.mpr (WithTop.coe_le_coe.mpr behind.le)
            by_cases passed : (other : WithTop Key) < next
            · simp [passed, nothing other (by simp [moves]) behind passed]
            · simp [coe, passed]

/-- The iterator passes nothing that is to be moved, if what was behind it is
kept. -/
theorem lookup_of_passed (relocation : Relocation target source)
    {map' : OrderedMap Key Value} {key between : Key}
    (before : map.lookup = relocated target source lookup (key : WithTop Key))
    (kept : map'.lookup between = map.lookup between)
    (isMoved : target between ≠ none) (behind : key < between)
    (passed : (between : WithTop Key) < map'.after key) :
    lookup between = none := by
  have gone := lookup_of_between behind passed
  rw [kept, before, relocated_of_target relocation isMoved
    (WithTop.coe_le_coe.mpr behind.le)] at gone
  exact gone

/-- A turn moves the entry at the iterator and keeps the others. -/
theorem lookup_of_turn (relocation : Relocation target source)
    {state state' : OrderedMap Key Value × WithTop Key}
    (turn : Turn target state state')
    (before : state.1.lookup = relocated target source lookup state.2) :
    state'.1.lookup = relocated target source lookup state'.2 := by
  cases turn with
  | ended atEnd same => rwa [same]
  | moved key newKey value isAt moves present map next =>
      rw [isAt] at before
      have later : (key : WithTop Key) < state'.2 := by
        rw [next]
        exact lt_after
      have hasTarget : target key ≠ none := by simp [moves]
      have isSettled := relocation.settled moves
      have apart : newKey ≠ key := by
        rintro rfl
        exact hasTarget isSettled
      have entry : ∀ other, state'.1.lookup other =
          if other = key then none
          else if other = newKey then some value
          else state.1.lookup other := by
        intro other
        simp only [map, erase, assign, Function.update_apply]
      have original : lookup key = some value := by
        rw [before, relocated_of_target relocation hasTarget le_rfl] at present
        exact present
      have nothing : ∀ between, target between ≠ none → key < between →
          (between : WithTop Key) < state'.2 → lookup between = none := by
        intro between isMoved behind passed
        rw [next] at passed
        have notNew : between ≠ newKey := by
          rintro rfl
          exact isMoved isSettled
        apply lookup_of_passed relocation before _ isMoved behind passed
        rw [entry, if_neg behind.ne', if_neg notNew]
      funext other
      rw [entry]
      split_ifs with isKey isNew
      · subst isKey
        simp [relocated, relocation.source_eq_none hasTarget, moves, later]
      · subst isNew
        simp [relocated, relocation.target_iff.mp moves, later, original]
      · rw [before, relocated_advance relocation later nothing]
        · intro isSource
          have same := relocation.target_iff.mpr isSource
          rw [moves] at same
          exact isNew (Option.some.inj same).symm
        · exact fun _ => isKey
  | kept key isAt stays map next =>
      rw [isAt] at before
      have later : (key : WithTop Key) < state'.2 := by
        rw [next]
        exact lt_after
      have nothing : ∀ between, target between ≠ none → key < between →
          (between : WithTop Key) < state'.2 → lookup between = none := by
        intro between isMoved behind passed
        rw [next] at passed
        apply lookup_of_passed relocation before _ isMoved behind passed
        rw [map]
      funext other
      rw [map, before, relocated_advance relocation later nothing]
      · intro isSource
        rw [relocation.target_iff.mpr isSource] at stays
        exact Option.some_ne_none _ stays
      · rintro isMoved rfl
        exact isMoved stays

/-- When the loop has ended, every entry that was to be moved is moved. -/
theorem lookup_of_rekeys (relocation : Relocation target source)
    {final : OrderedMap Key Value} (rekeys : map.Rekeys target final) :
    final.lookup = relocated target source map.lookup ⊤ := by
  obtain ⟨turns, ends⟩ := rekeys
  have initially : map.lookup =
      relocated target source map.lookup map.first := by
    funext key
    unfold relocated
    split
    · next oldKey isSource =>
        split
        · next passed => simp [lookup_of_lt_first passed]
        · rfl
    · split
      · next passed => exact lookup_of_lt_first passed.2
      · rfl
  have kept := (invariant_of_rekeyTurns
    (fun state => state.1.lookup = relocated target source map.lookup state.2)
    initially (fun _ _ turn before => lookup_of_turn relocation turn before)
    turns).1
  rwa [ends] at kept

/-- The loop ends if no entry is to be moved twice. -/
theorem exists_rekeys (relocation : Relocation target source)
    (map : OrderedMap Key Value) : ∃ final, map.Rekeys target final := by
  apply exists_rekeys_of_lighter (fun _ => True)
    (fun key => if target key = none then 0 else 1)
  case initially => simp
  case lighter =>
    intro key newKey _ moves
    have isSettled := relocation.settled moves
    exact .inr ⟨trivial, by simp [moves, isSettled]⟩

end Relocation

section Changes

variable {weight : Key → Int}

/-- The map has lost keys, or it has as many as before and they weigh more. -/
def Shifted (weight : Key → Int) (map later : OrderedMap Key Value) : Prop :=
  later.keys.card < map.keys.card ∨
    later.keys.card = map.keys.card ∧
      ∑ key ∈ map.keys, weight key < ∑ key ∈ later.keys, weight key

omit [LinearOrder Key] in
/-- Two maps with the same entries have the same keys. -/
theorem keys_eq_of_lookup_eq {later : OrderedMap Key Value}
    (same : later.lookup = map.lookup) : later.keys = map.keys := by
  ext key
  rw [later.mem_keys, map.mem_keys, same]

omit [LinearOrder Key] in
theorem lookup_ne_of_shifted {later : OrderedMap Key Value}
    (shifted : Shifted weight map later) : later.lookup ≠ map.lookup := by
  intro same
  rw [Shifted, keys_eq_of_lookup_eq same] at shifted
  rcases shifted with fewer | ⟨-, heavier⟩
  · exact lt_irrefl _ fewer
  · exact lt_irrefl _ heavier

/-- Moving an entry to itself or to a heavier key shifts the map. -/
theorem shifted_of_moved {key newKey : Key} {value : Value}
    (heavier : newKey = key ∨ weight key < weight newKey)
    (present : map.lookup key = some value) :
    Shifted weight map ((map.assign newKey value).erase key) := by
  have member : key ∈ map.keys := map.mem_keys.mpr (by simp [present])
  have positive : 0 < map.keys.card := Finset.card_pos.mpr ⟨key, member⟩
  have erased := Finset.card_erase_of_mem member
  by_cases isKey : newKey ∈ map.keys
  · left
    simp only [erase, assign, Finset.insert_eq_self.mpr isKey]
    omega
  · have apart : newKey ≠ key := by
      rintro rfl
      exact isKey member
    have fresh : newKey ∉ map.keys.erase key := by
      simp [isKey]
    have sum := Finset.add_sum_erase map.keys weight member
    have increases := heavier.resolve_left apart
    right
    simp only [erase, assign, Finset.erase_insert_of_ne apart,
      Finset.card_insert_of_notMem fresh, Finset.sum_insert fresh]
    omega

omit [LinearOrder Key] in
theorem shifted_trans {later final : OrderedMap Key Value}
    (first : Shifted weight map later) (second : Shifted weight later final) :
    Shifted weight map final := by
  unfold Shifted at first second ⊢
  omega

/-- The loop either has met nothing to move, or has shifted the map. -/
def MetOrShifted (target : Key → Option Key) (weight : Key → Int)
    (map : OrderedMap Key Value) (state : OrderedMap Key Value × WithTop Key) :
    Prop :=
  state.1 = map ∧ (∀ key ∈ map.keys, (key : WithTop Key) < state.2 →
    target key = none) ∨ Shifted weight map state.1

theorem metOrShifted_of_turn
    (grows : ∀ {key newKey}, target key = some newKey →
      newKey = key ∨ weight key < weight newKey)
    {state state' : OrderedMap Key Value × WithTop Key}
    (turn : Turn target state state')
    (before : MetOrShifted target weight map state) :
    MetOrShifted target weight map state' := by
  cases turn with
  | ended atEnd same => rwa [same]
  | moved key newKey value isAt moves present moved next =>
      right
      have shifts := shifted_of_moved (grows moves) present
      rw [← moved] at shifts
      rcases before with ⟨same, -⟩ | shifted
      · rwa [same] at shifts
      · exact shifted_trans shifted shifts
  | kept key isAt stays kept next =>
      rcases before with ⟨same, met⟩ | shifted
      · left
        refine ⟨kept.trans same, ?_⟩
        intro other isKey passed
        rcases lt_trichotomy other key with earlier | rfl | later
        · apply met other isKey
          rw [isAt]
          exact WithTop.coe_lt_coe.mpr earlier
        · exact stays
        · rw [next, kept.trans same] at passed
          exact absurd (lookup_of_between later passed) (map.mem_keys.mp isKey)
      · right
        rwa [kept]

/-- If moved entries get heavier keys, or are moved to themselves and so lost,
then the loop leaves the map as it was if and only if nothing in it was to be
moved. -/
theorem lookup_eq_iff_of_rekeys {final : OrderedMap Key Value}
    (grows : ∀ {key newKey}, target key = some newKey →
      newKey = key ∨ weight key < weight newKey)
    (rekeys : map.Rekeys target final) :
    final.lookup = map.lookup ↔ ∀ key ∈ map.keys, target key = none := by
  obtain ⟨turns, ends⟩ := rekeys
  have initially : MetOrShifted target weight map (map, map.first) := by
    refine .inl ⟨rfl, fun key isKey passed => ?_⟩
    exact absurd (lookup_of_lt_first passed) (map.mem_keys.mp isKey)
  constructor
  · intro same
    have kept := (invariant_of_rekeyTurns (MetOrShifted target weight map)
      initially (fun _ _ turn before => metOrShifted_of_turn grows turn before)
      turns).1
    rw [ends] at kept
    rcases kept with ⟨-, met⟩ | shifted
    · exact fun key isKey => met key isKey (WithTop.coe_lt_top key)
    · exact absurd same (lookup_ne_of_shifted shifted)
  · intro nothing
    have keeps : ∀ state state', Turn target state state' →
        state.1 = map → state'.1 = map := by
      intro state state' turn before
      cases turn with
      | ended atEnd same => rwa [same]
      | moved key newKey value isAt moves present moved next =>
          rw [before] at present
          have isKey : key ∈ map.keys := map.mem_keys.mpr (by simp [present])
          rw [nothing key isKey] at moves
          exact absurd moves.symm (Option.some_ne_none _)
      | kept key isAt stays kept next => exact kept.trans before
    have kept := (invariant_of_rekeyTurns (fun state => state.1 = map) rfl
      keeps turns).1
    rw [ends] at kept
    exact congrArg lookup kept

end Changes

end OrderedMap
