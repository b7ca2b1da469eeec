import Mathlib.Algebra.Ring.Nat
import Mathlib.Data.Nat.Log
import Mathlib.Logic.Function.Iterate
import CircuitDraft.Outcome
import CircuitDraft.Proofs.ScopeSearch

/-!
What a scope answers for when all that is known of its list is that it ascends, repeats included. The
search halves the list a number of times that depends on the length only, it finds what occurs
there and nothing else, and outputs are marked accordingly.
-/

namespace CircuitDraft.Scope

variable {vars : Array Variable} {var : Variable} {scope : Scope}

/-- What is left of a list in which a variable is searched for: `count` entries from position `start`
on. -/
structure Window (vars : Array Variable) where
  start : Nat
  count : Nat
  within : start + count ≤ vars.size

namespace Window

/-- The window that a search begins with. -/
def whole (vars : Array Variable) : Window vars :=
  ⟨0, vars.size, by omega⟩

/-- The entry in the middle of a window, the later of the two if their number is even. -/
def middle (w : Window vars) (h : 1 < w.count) : Variable :=
  have hwithin := w.within
  vars[w.start + w.count / 2]

/-- What remains if the entries before the middle are given up. -/
def upper (w : Window vars) : Window vars :=
  ⟨w.start + w.count / 2, w.count - w.count / 2, by have hwithin := w.within; omega⟩

/-- What remains if as many entries are given up at the end. -/
def lower (w : Window vars) : Window vars :=
  ⟨w.start, w.count - w.count / 2, by have hwithin := w.within; omega⟩

/-- One round of a search, which a single entry ends. -/
def narrow (var : Variable) (w : Window vars) : Window vars :=
  if h : 1 < w.count then
    if w.middle h ≤ var then w.upper else w.lower
  else
    w

/-- The window after a number of rounds. -/
def narrowed (w : Window vars) (var : Variable) (rounds : Nat) : Window vars :=
  (narrow var)^[rounds] w

/-- The answer of a search that has come down to one entry. -/
def startsWith (w : Window vars) (var : Variable) : Bool :=
  vars[w.start]? == some var

/-- The answer of a search of the window. -/
def searched (w : Window vars) (var : Variable) : Bool :=
  search vars var w.start w.count w.within

theorem count_narrow (w : Window vars) (var : Variable) :
    (w.narrow var).count = w.count - w.count / 2 := by
  rw [narrow]
  split
  · split <;> rfl
  · omega

theorem searched_eq (w : Window vars) (var : Variable) (hcount : 1 < w.count) :
    w.searched var = if w.middle hcount ≤ var then w.upper.searched var else w.lower.searched var := by
  rw [searched, search, dif_pos hcount]
  rfl

theorem searched_narrow (w : Window vars) (var : Variable) :
    (w.narrow var).searched var = w.searched var := by
  by_cases hcount : 1 < w.count
  · rw [w.searched_eq var hcount, narrow, dif_pos hcount]
    split <;> rfl
  · rw [narrow, dif_neg hcount]

theorem searched_of_count_le (w : Window vars) (var : Variable) (hcount : w.count ≤ 1) :
    w.searched var = w.startsWith var := by
  rw [searched, search, dif_neg (Nat.not_lt.mpr hcount), startsWith]

/-- Each round halves the number of the entries that are left, rounding up. -/
theorem one_lt_count_narrowed_iff (w : Window vars) (var : Variable) (rounds : Nat) :
    1 < (w.narrowed var rounds).count ↔ 2 ^ rounds < w.count := by
  induction rounds generalizing w with
  | zero => exact Iff.rfl
  | succ rounds ih =>
      have hstep : w.narrowed var (rounds + 1) = (w.narrow var).narrowed var rounds := rfl
      rw [hstep, ih, count_narrow, Nat.pow_succ]
      omega

theorem searched_narrowed (w : Window vars) (var : Variable) (rounds : Nat) :
    (w.narrowed var rounds).searched var = w.searched var := by
  induction rounds generalizing w with
  | zero => rfl
  | succ rounds ih => exact (ih (w.narrow var)).trans (w.searched_narrow var)

end Window

theorem searched_whole (scope : Scope) (var : Variable) :
    (Window.whole scope.vars).searched var = scope.contains var :=
  rfl

/-- On a list of any length the search is over as soon as two to the number of its rounds has reached
that length. -/
theorem one_lt_count_whole_iff (vars : Array Variable) (var : Variable) (rounds : Nat) :
    1 < ((Window.whole vars).narrowed var rounds).count ↔ rounds < Nat.clog 2 vars.size := by
  rw [Window.one_lt_count_narrowed_iff, Nat.lt_clog_iff_pow_lt Nat.one_lt_two]
  rfl

theorem contains_eq_startsWith (scope : Scope) (var : Variable) :
    scope.contains var =
      ((Window.whole scope.vars).narrowed var (Nat.clog 2 scope.vars.size)).startsWith var := by
  have hover : ¬ 1 < ((Window.whole scope.vars).narrowed var (Nat.clog 2 scope.vars.size)).count :=
    fun hcount => Nat.lt_irrefl _ ((one_lt_count_whole_iff _ _ _).mp hcount)
  rw [← Window.searched_of_count_le _ _ (Nat.not_lt.mp hover), Window.searched_narrowed,
    searched_whole]

theorem addOutput_of_mem (hascending : scope.vars.toList.Pairwise (· ≤ ·)) (hvar : var ∈ scope.vars) :
    scope.addOutput var = .ok { scope with outputs := scope.outputs.push var } := by
  rw [addOutput, if_pos ((contains_iff_mem hascending).mpr hvar)]

theorem addOutput_of_notMem (hvar : var ∉ scope.vars) :
    scope.addOutput var = .error (.foreignVariable var scope.id) := by
  have hcontains : ¬ scope.contains var = true := mt mem_of_search hvar
  rw [addOutput, if_neg hcontains]

/-- The scope that an attempt to mark an output leaves behind, granted or refused. -/
def attempt (scope : Scope) (var : Variable) : Scope :=
  (Outcome.ofUpdate scope (scope.addOutput var)).state

/-- The scope after attempts to mark each of the variables in turn. -/
def attemptAll (scope : Scope) (attempted : List Variable) : Scope :=
  attempted.foldl attempt scope

theorem attempt_of_mem (hascending : scope.vars.toList.Pairwise (· ≤ ·)) (hvar : var ∈ scope.vars) :
    scope.attempt var = { scope with outputs := scope.outputs.push var } := by
  rw [attempt, addOutput_of_mem hascending hvar]
  rfl

theorem attempt_of_notMem (hvar : var ∉ scope.vars) : scope.attempt var = scope := by
  rw [attempt, addOutput_of_notMem hvar]
  rfl

/-- Of any attempts, those for variables of the scope leave an output each, and the others nothing. -/
theorem attemptAll_eq (hascending : scope.vars.toList.Pairwise (· ≤ ·)) (attempted : List Variable) :
    scope.attemptAll attempted = { scope with
      outputs := scope.outputs ++ attempted.filter fun var => var ∈ scope.vars } := by
  induction attempted generalizing scope with
  | nil => simp [attemptAll]
  | cons var rest ih =>
      have hstep : scope.attemptAll (var :: rest) = (scope.attempt var).attemptAll rest := rfl
      by_cases hvar : var ∈ scope.vars
      · -- Marking an output leaves the variables as they are, so that they still ascend.
        rw [hstep, attempt_of_mem hascending hvar, ih]
        · simp [hvar]
        · exact hascending
      · rw [hstep, attempt_of_notMem hvar, ih hascending]
        simp [hvar]

/-- The scope takes a variable for its own exactly if it occurs in its list. The search for it is over
after a number of rounds that only the length of the list decides, with at most one entry left, which
gives the answer. An occurring variable can be marked as an output, any number of times, and an
attempt to mark another one is refused and leaves no trace. -/
structure AnswersByMembership (scope : Scope) : Prop where
  contains_iff : ∀ var, scope.contains var = true ↔ var ∈ scope.vars
  goes_on_iff : ∀ var rounds, 1 < ((Window.whole scope.vars).narrowed var rounds).count ↔
    rounds < Nat.clog 2 scope.vars.size
  contains_eq : ∀ var, scope.contains var =
    ((Window.whole scope.vars).narrowed var (Nat.clog 2 scope.vars.size)).startsWith var
  addOutput_ok_iff : ∀ var after, scope.addOutput var = .ok after ↔
    var ∈ scope.vars ∧ after = { scope with outputs := scope.outputs.push var }
  addOutput_error_iff : ∀ var cause, scope.addOutput var = .error cause ↔
    var ∉ scope.vars ∧ cause = .foreignVariable var scope.id
  attemptAll_eq : ∀ attempted : List Variable, scope.attemptAll attempted = { scope with
    outputs := scope.outputs ++ attempted.filter fun var => var ∈ scope.vars }

theorem answersByMembership (hascending : scope.vars.toList.Pairwise (· ≤ ·)) :
    scope.AnswersByMembership where
  contains_iff _ := contains_iff_mem hascending
  goes_on_iff := one_lt_count_whole_iff scope.vars
  contains_eq := contains_eq_startsWith scope
  addOutput_ok_iff := by
    intro var after
    by_cases hvar : var ∈ scope.vars
    · simp [addOutput_of_mem hascending hvar, hvar, eq_comm]
    · simp [addOutput_of_notMem hvar, hvar]
  addOutput_error_iff := by
    intro var cause
    by_cases hvar : var ∈ scope.vars
    · simp [addOutput_of_mem hascending hvar, hvar]
    · simp [addOutput_of_notMem hvar, hvar, eq_comm]
  attemptAll_eq := attemptAll_eq hascending

/-- A scope that was fed from a counter and from copies of it, so that numbers came more than once. -/
def fedFromCopies : Scope :=
  [1, 1, 2, 2, 2, 5, 7, 7].foldl (fun scope number => scope.record .input ⟨number⟩) (.empty ⟨4⟩)

theorem answersByMembership_fedFromCopies :
    fedFromCopies.vars.toList.Pairwise (· ≤ ·) ∧ fedFromCopies.AnswersByMembership ∧
      fedFromCopies.contains ⟨2⟩ = true ∧ fedFromCopies.contains ⟨6⟩ = false ∧
      (fedFromCopies.attemptAll [⟨7⟩, ⟨6⟩, ⟨1⟩, .one, ⟨7⟩]).outputs = #[⟨7⟩, ⟨1⟩, ⟨7⟩] :=
  ⟨by decide, answersByMembership (by decide), by decide +kernel, by decide +kernel,
    by decide +kernel⟩

end CircuitDraft.Scope
