import UniBus.Foundations.Cursor

/-!
# Readers that allocate

A metered reader reports every allocation it asks for, with the number of bytes
that its cursor had left at that moment. The report stays when the reader fails.
`Covered` says that all allocations fit when the reader succeeds, and `FitsIff`
gives a check of the input alone that tells whether they fit in any case. The
rules follow the sequence of the reads.
-/
namespace Cursor

variable {ε α β : Type}

structure Allocation where
  size : ℕ
  remaining : ℕ
  deriving DecidableEq, Repr

/-- No more was asked for than there was input left. -/
def Allocation.Fits (a : Allocation) : Prop := a.size ≤ a.remaining

instance (a : Allocation) : Decidable a.Fits := inferInstanceAs (Decidable (_ ≤ _))

def Metered (ε α : Type) := List UInt8 → Except ε (α × List UInt8) × List Allocation

namespace Metered

def bind (t : Metered ε α) (f : α → Metered ε β) : Metered ε β := fun cursor =>
  match t cursor with
  | (.ok (a, rest), log) => ((f a rest).1, log ++ (f a rest).2)
  | (.error e, log) => (.error e, log)

instance : Monad (Metered ε) where
  pure a := fun cursor => (.ok (a, cursor), [])
  bind := bind

/-- A reader that allocates nothing. -/
def plain (r : Reader ε α) : Metered ε α := fun cursor => (r cursor, [])

/-- Asks for `n` bytes, or for room for `n` elements. -/
def alloc (n : ℕ) : Metered ε Unit := fun cursor => (.ok ((), cursor), [⟨n, cursor.length⟩])

def many (t : Metered ε α) : ℕ → Metered ε (List α)
  | 0 => pure []
  | n + 1 => do
    let a ← t
    let as ← many t n
    return a :: as

/-- Room for `n` elements, then the elements. -/
def collect (t : Metered ε α) (n : ℕ) : Metered ε (List α) := do
  alloc n
  many t n

/-- The reader without its report. -/
def forget (t : Metered ε α) : Reader ε α := fun cursor => (t cursor).1

/-! ## Forgetting the report -/

@[simp] theorem forget_pure (a : α) : forget (pure a : Metered ε α) = pure a := rfl

@[simp] theorem forget_plain (r : Reader ε α) : forget (plain r) = r := rfl

@[simp] theorem forget_alloc (n : ℕ) : forget (alloc n : Metered ε Unit) = pure () := rfl

variable {t : Metered ε α} {f : α → Metered ε β}

theorem bind_ok {cursor rest : List UInt8} {a : α} (h : (t cursor).1 = .ok (a, rest)) :
    (t >>= f) cursor = ((f a rest).1, (t cursor).2 ++ (f a rest).2) := by
  change bind t f cursor = _
  unfold bind
  rcases ht : t cursor with ⟨result, log⟩
  rw [ht] at h
  obtain rfl := h
  rfl

theorem bind_error {cursor : List UInt8} {e : ε} (h : (t cursor).1 = .error e) :
    (t >>= f) cursor = (.error e, (t cursor).2) := by
  change bind t f cursor = _
  unfold bind
  rcases ht : t cursor with ⟨result, log⟩
  rw [ht] at h
  obtain rfl := h
  rfl

@[simp] theorem forget_bind (t : Metered ε α) (f : α → Metered ε β) :
    forget (t >>= f) = forget t >>= fun a => forget (f a) := by
  funext cursor
  change ((t >>= f) cursor).1 = StateT.bind (forget t) (fun a => forget (f a)) cursor
  rw [StateT.bind, forget]
  cases ht : (t cursor).1 with
  | ok result =>
    rw [bind_ok ht]
    rfl
  | error e =>
    rw [bind_error ht]
    rfl

@[simp] theorem forget_map (g : α → β) (t : Metered ε α) :
    forget (g <$> t) = g <$> forget t := by
  rw [map_eq_pure_bind g (forget t)]
  exact forget_bind t fun a => pure (g a)

@[simp] theorem forget_many (t : Metered ε α) (n : ℕ) :
    forget (many t n) = Cursor.many (forget t) n := by
  induction n with
  | zero => rfl
  | succ n ih => simp only [many, Cursor.many, forget_bind, forget_pure, ih]

@[simp] theorem forget_collect (t : Metered ε α) (n : ℕ) :
    forget (collect t n) = Cursor.many (forget t) n := by
  rw [← forget_many]
  rfl

instance : LawfulMonad (Metered ε) := LawfulMonad.mk' _
  (by
    intro α t
    funext cursor
    change bind t pure cursor = t cursor
    unfold bind
    rcases t cursor with ⟨_ | _, log⟩
    · rfl
    · exact congrArg (Prod.mk _) (List.append_nil log))
  (by
    intro α β a f
    rfl)
  (by
    intro α β γ t f g
    funext cursor
    change bind (bind t f) g cursor = bind t (fun a => bind (f a) g) cursor
    unfold bind
    rcases t cursor with ⟨_ | ⟨a, rest⟩, log⟩
    · rfl
    · dsimp only
      rcases f a rest with ⟨_ | ⟨b, rest'⟩, log'⟩
      · rfl
      · exact congrArg (Prod.mk _) (List.append_assoc ..))

/-! ## What fits in an accepted input -/

/-- All allocations fit when the reader succeeds. -/
def Covered (t : Metered ε α) : Prop :=
  ∀ cursor r, (t cursor).1 = .ok r → ∀ a ∈ (t cursor).2, a.Fits

theorem covered_plain (r : Reader ε α) : Covered (plain r) := by
  intro cursor result hok a ha
  exact absurd ha List.not_mem_nil

theorem covered_pure (a : α) : Covered (pure a : Metered ε α) := covered_plain (pure a)

theorem covered_fill {n : ℕ} {r : Reader ε α} (h : Takes n r) :
    Covered (alloc n >>= fun _ => plain r) := by
  intro cursor result hok a ha
  obtain rfl := List.mem_singleton.mp ha
  have htaken := h cursor result.1 result.2 hok
  change n ≤ cursor.length
  omega

theorem Covered.bind (h : Covered t) (hf : ∀ a, Covered (f a)) : Covered (t >>= f) := by
  intro cursor r hok a ha
  cases ht : (t cursor).1 with
  | error e => simp [bind_error ht] at hok
  | ok result =>
    rw [bind_ok ht] at hok ha
    rcases List.mem_append.mp ha with hfirst | hsecond
    · exact h cursor _ ht a hfirst
    · exact hf _ _ r hok a hsecond

theorem Covered.map (g : α → β) (h : Covered t) : Covered (g <$> t) :=
  h.bind fun a => covered_pure (g a)

theorem Covered.many (h : Covered t) (n : ℕ) : Covered (many t n) := by
  induction n with
  | zero => exact covered_pure []
  | succ n ih => exact h.bind fun a => ih.bind fun as => covered_pure (a :: as)

theorem collect_eq (t : Metered ε α) (n : ℕ) (cursor : List UInt8) :
    collect t n cursor = ((many t n cursor).1, ⟨n, cursor.length⟩ :: (many t n cursor).2) := rfl

/-- A list whose elements take a byte each has no more of them than there are bytes. -/
theorem Covered.collect (h : Covered t) (htakes : Takes 1 (forget t)) (n : ℕ) :
    Covered (collect t n) := by
  intro cursor r hok a ha
  rw [collect_eq] at hok ha
  rcases List.mem_cons.mp ha with rfl | ha
  · have hlist : Cursor.many (forget t) n cursor = .ok (r.1, r.2) := by
      rw [← forget_many]
      exact hok
    have htaken := htakes.many n cursor r.1 r.2 hlist
    change n ≤ cursor.length
    omega
  · exact h.many n cursor r hok a ha

/-! ## What fits in any input -/

/-- All allocations fit just in case the input passes the check. -/
def FitsIff (t : Metered ε α) (check : List UInt8 → Bool) : Prop :=
  ∀ cursor, (∀ a ∈ (t cursor).2, a.Fits) ↔ check cursor = true

theorem fitsIff_plain (r : Reader ε α) : FitsIff (plain r) fun _ => true := by
  intro cursor
  exact iff_of_true (fun a ha => absurd ha List.not_mem_nil) rfl

theorem fitsIff_pure (a : α) : FitsIff (pure a : Metered ε α) fun _ => true :=
  fitsIff_plain (pure a)

variable {t : Metered ε α} {f : α → Metered ε β} {check next : List UInt8 → Bool}

theorem FitsIff.map (g : α → β) (h : FitsIff t check) : FitsIff (g <$> t) check := by
  intro cursor
  rw [← h cursor]
  change (∀ a ∈ ((t >>= fun a => pure (g a)) cursor).2, a.Fits) ↔ _
  cases ht : (t cursor).1 with
  | error e => rw [bind_error ht]
  | ok result =>
    rw [bind_ok ht]
    change (∀ a ∈ (t cursor).2 ++ [], a.Fits) ↔ _
    rw [List.append_nil]

/-- Fields of a fixed width leave the check to what follows them; what follows passes it
when there is nothing left. -/
theorem FitsIff.skip {width : ℕ} {r : Reader ε α} (hr : TakesJust width r)
    (hf : ∀ a, FitsIff (f a) next) (hnil : next [] = true) :
    FitsIff (plain r >>= f) fun cursor => next (cursor.drop width) := by
  intro cursor
  rcases hr cursor with ⟨hshort, e, he⟩ | ⟨a, ha⟩
  · have hrun : (plain r >>= f) cursor = (.error e, []) := bind_error he
    have hdrop : cursor.drop width = [] := List.drop_of_length_le (Nat.le_of_lt hshort)
    rw [hrun]
    dsimp only
    rw [hdrop]
    exact iff_of_true (fun a ha => absurd ha List.not_mem_nil) hnil
  · have hrun : (plain r >>= f) cursor = f a (cursor.drop width) := bind_ok ha
    rw [hrun]
    exact hf a _

/-- A check of one element, given the check of what follows it, once for each element. -/
def repeated (check : List UInt8 → (List UInt8 → Bool) → Bool) : ℕ → List UInt8 → Bool
  | 0, _ => true
  | n + 1, rest => check rest (repeated check n)

section Repeated
variable {check : List UInt8 → (List UInt8 → Bool) → Bool}
  (h : ∀ (f : α → Metered ε (List α)) next, (∀ a, FitsIff (f a) next) →
    FitsIff (t >>= f) fun rest => check rest next)

include h in
theorem FitsIff.many (n : ℕ) : FitsIff (many t n) (repeated check n) := by
  induction n with
  | zero => exact fitsIff_pure []
  | succ n ih => exact h _ _ fun a => ih.map fun as => a :: as

include h in
theorem FitsIff.collect (n : ℕ) :
    FitsIff (collect t n) fun rest => n ≤ rest.length && repeated check n rest := by
  intro cursor
  rw [collect_eq, List.forall_mem_cons, FitsIff.many h n cursor, Bool.and_eq_true,
    decide_eq_true_eq]
  exact Iff.rfl

end Repeated

end Metered
end Cursor
