import UniBus.Foundations.Updates

/-!
# A replica and what is on its way to it

The owner of some values keeps a replica up to date over one ordered channel. Two
tasks fill the channel: one sends the updates that the owner posts, in the order of
their posting, and one sends, once or again later, a list of what the owner holds.
The two interleave, so a posted update may overtake the list.
-/
namespace Updates

variable {K V : Type*}

/-- Nothing is set after it is unset. -/
def Ordered (us : List (Update K V)) : Prop :=
  us.Pairwise fun u u' => u.key = u'.key → u.value = none → u'.value = none

theorem Ordered.concat {us : List (Update K V)} {u : Update K V} (h : Ordered us)
    (hu : ∀ u' ∈ us, u'.key = u.key → u'.value = none → u.value = none) :
    Ordered (us ++ [u]) := by
  refine List.pairwise_append.mpr ⟨h, List.pairwise_singleton _ _, ?_⟩
  intro u' hu' v hv
  obtain rfl := List.mem_singleton.mp hv
  exact hu u' hu'

theorem Ordered.replicate {us : List (Update K V)} {u : Update K V} (h : Ordered (u :: us))
    (n : ℕ) : Ordered (List.replicate n u ++ us) := by
  obtain ⟨hfirst, hrest⟩ := List.pairwise_cons.mp h
  refine List.pairwise_append.mpr ⟨?_, hrest, ?_⟩
  · exact List.pairwise_replicate.mpr (Or.inr fun _ hnone => hnone)
  · intro u' hu' v hv
    obtain rfl := List.eq_of_mem_replicate hu'
    exact hfirst v hv

variable [DecidableEq K] {k : K} {u : Update K V} {us : List (Update K V)} {x : Option V}

theorem Ordered.effect_eq_none (h : Ordered us) (hk : .unset k ∈ us) : effect k us x = none := by
  obtain ⟨before, after, rfl⟩ := List.append_of_mem hk
  have hafter := (List.pairwise_cons.mp (List.pairwise_append.mp h).2.1).1
  rw [effect_append, effect_cons]
  simp only [Update.key, if_true]
  exact effect_of_forall_eq fun u hu hkey => hafter u hu hkey.symm rfl

/-- One replica: what it holds, what is in its channel, and what the two tasks still
have to send. -/
structure Link (K V : Type*) where
  value : K → Option V
  sent : List (Update K V)
  /-- The rest of the list. -/
  pending : List (Update K V)
  /-- The posted updates. -/
  owed : List (Update K V)
  /-- Whether the list has been taken. -/
  listed : Bool

namespace Link

variable (l : Link K V)

/-- What the replica holds for a key after everything on its way. -/
def final (k : K) : Option V := effect k (l.sent ++ l.pending ++ l.owed) (l.value k)

/-- The list sets a key after all posted updates have unset it. -/
def Stuck (k : K) : Prop := (∃ v, .set k v ∈ l.pending) ∧ .unset k ∉ l.owed

/-- The replica is going to hold `x`, or lacks the key because the list is still to
be taken, or the list is going to set a key that is gone. -/
def Agrees (k : K) (x : Option V) : Prop :=
  l.final k = x ∨ (l.listed = false ∧ l.final k = none) ∨ (x = none ∧ l.Stuck k)

variable {l}

theorem Agrees.eq_value {k : K} {x : Option V} (h : l.Agrees k x) (hlisted : l.listed = true)
    (hsent : l.sent = []) (hpending : l.pending = []) (howed : l.owed = []) :
    l.value k = x := by
  rcases h with hfinal | ⟨hnot, -⟩ | ⟨-, ⟨v, hv⟩, -⟩
  · simpa [final, hsent, hpending, howed] using hfinal
  · rw [hlisted] at hnot
    cases hnot
  · rw [hpending] at hv
    cases hv

/-! ## The owner posts an update -/

theorem agrees_post_self (l : Link K V) (u : Update K V) :
    ({ l with owed := l.owed ++ [u] } : Link K V).Agrees u.key u.value := by
  left
  rw [final, ← List.append_assoc, effect_concat, if_pos rfl]

theorem Agrees.post (h : l.Agrees k x) (hk : u.key ≠ k) :
    ({ l with owed := l.owed ++ [u] } : Link K V).Agrees k x := by
  have hfinal : ({ l with owed := l.owed ++ [u] } : Link K V).final k = l.final k := by
    rw [final, ← List.append_assoc, effect_concat, if_neg hk, final]
  rw [Agrees, hfinal]
  refine h.imp_right (Or.imp_right ?_)
  rintro ⟨hx, hset, howed⟩
  refine ⟨hx, hset, ?_⟩
  rw [List.mem_append, List.mem_singleton]
  rintro (hmem | rfl)
  · exact howed hmem
  · exact hk rfl

/-! ## Posted updates are sent -/

variable {rest : List (Update K V)}

/-- An update is not sent to a replica whose list has not been asked for. -/
theorem Agrees.skip (h : l.Agrees k x) (howed : l.owed = u :: rest) (hlisted : l.listed = false)
    (hvalue : l.value k = none) (hsent : l.sent = []) (hpending : l.pending = []) :
    ({ l with owed := rest } : Link K V).Agrees k x := by
  have hfinal : ({ l with owed := rest } : Link K V).final k = effect k rest none := by
    simp [final, hsent, hpending, hvalue]
  have hold : l.final k = effect k (u :: rest) none := by
    simp [final, hsent, hpending, hvalue, howed]
  rw [Agrees, hfinal]
  rcases effect_tail k u rest none with heq | hnone
  · rw [heq, ← hold]
    refine h.imp_right (Or.imp_right ?_)
    rintro ⟨-, ⟨v, hv⟩, -⟩
    rw [hpending] at hv
    cases hv
  · exact Or.inr (Or.inl ⟨hlisted, hnone⟩)

theorem Agrees.repeat {n : ℕ} (h : l.Agrees k x) (howed : l.owed = u :: rest) (hn : 0 < n) :
    ({ l with owed := List.replicate n u ++ rest } : Link K V).Agrees k x := by
  have hfinal : ({ l with owed := List.replicate n u ++ rest } : Link K V).final k =
      l.final k := by
    rw [final, final, howed, effect_append, effect_append, effect_replicate hn, ← effect_append,
      ← effect_append]
    rfl
  rw [Agrees, hfinal]
  refine h.imp_right (Or.imp_right ?_)
  rintro ⟨hx, hset, hunset⟩
  refine ⟨hx, hset, ?_⟩
  simpa [howed, hn.ne'] using hunset

/-- A posted update overtakes the rest of the list. -/
theorem Agrees.push {info : K → V} (h : l.Agrees k x) (howed : l.owed = u :: rest)
    (hordered : Ordered rest) (hpending : ∀ u' ∈ l.pending, u'.value = some (info u'.key))
    (hvalue : u.value = none ∨ u.value = some (info u.key))
    (hgone : u.key = k → u.value = none → x = none) :
    ({ l with sent := l.sent ++ [u], owed := rest } : Link K V).Agrees k x := by
  by_cases hover : u.key = k ∧ u.value = none ∧ ∃ v, .set k v ∈ l.pending
  · obtain ⟨hk, hnone, hset⟩ := hover
    by_cases hunset : .unset k ∈ rest
    · left
      rw [final, effect_append, hordered.effect_eq_none hunset, hgone hk hnone]
    · exact Or.inr (Or.inr ⟨hgone hk hnone, hset, hunset⟩)
  · have hmove : effect k (u :: l.pending) (effect k l.sent (l.value k)) =
        effect k (l.pending ++ [u]) (effect k l.sent (l.value k)) := by
      by_cases hk : u.key = k
      · apply effect_move
        intro u' hu' hkey
        rcases hvalue with hnone | hsome
        · -- the update unsets the key, which is not in the list
          have heq := Update.eq_set (hpending u' hu')
          rw [hkey.trans hk] at heq
          exact absurd ⟨hk, hnone, info k, heq ▸ hu'⟩ hover
        · rw [hpending u' hu', hsome, hkey]
      · rw [effect_cons, effect_concat, if_neg hk, if_neg hk]
    have hfinal : ({ l with sent := l.sent ++ [u], owed := rest } : Link K V).final k =
        l.final k := by
      calc effect k (l.sent ++ [u] ++ l.pending ++ rest) (l.value k)
          = effect k rest (effect k (u :: l.pending) (effect k l.sent (l.value k))) := by
            rw [← effect_append, ← effect_append]
            simp
        _ = effect k rest (effect k (l.pending ++ [u]) (effect k l.sent (l.value k))) := by
            rw [hmove]
        _ = l.final k := by
            rw [final, howed, ← effect_append, ← effect_append]
            simp
    rw [Agrees, hfinal]
    refine h.imp_right (Or.imp_right ?_)
    rintro ⟨hx, hset, hunset⟩
    exact ⟨hx, hset, fun hmem => hunset (howed ▸ List.mem_cons_of_mem _ hmem)⟩

/-! ## The list is taken and sent -/

theorem Agrees.unlist (h : l.Agrees k x) :
    ({ l with listed := false } : Link K V).Agrees k x :=
  h.imp_right (Or.imp_left fun hlisted => ⟨rfl, hlisted.2⟩)

/-- Part of the list is sent. A key that is gone is still to be unset then. -/
theorem Agrees.forward (h : l.Agrees k x) (hpending : l.pending = us ++ rest)
    (hgone : ∀ v, .set k v ∈ us → x = none → .unset k ∈ l.owed) :
    ({ l with sent := l.sent ++ us, pending := rest } : Link K V).Agrees k x := by
  have hfinal : ({ l with sent := l.sent ++ us, pending := rest } : Link K V).final k =
      l.final k := by
    simp [final, hpending]
  rw [Agrees, hfinal]
  refine h.imp_right (Or.imp_right ?_)
  rintro ⟨hx, ⟨v, hv⟩, hunset⟩
  refine ⟨hx, ⟨v, ?_⟩, hunset⟩
  rw [hpending, List.mem_append] at hv
  exact hv.resolve_left fun hus => hunset (hgone v hus hx)

/-- The list is taken: it sets the keys with a value, and perhaps keys that are gone. -/
theorem Agrees.list {info : K → V} (h : l.Agrees k x) (hempty : l.pending = [])
    (hpending : ∀ u ∈ us, u.value = some (info u.key)) (hordered : Ordered l.owed)
    (howed : ∀ u ∈ l.owed, u.value = none ∨ u.value = some (info u.key))
    (hsome : x ≠ none → x = some (info k) ∧ .set k (info k) ∈ us ∧ .unset k ∉ l.owed) :
    ({ l with pending := us, listed := true } : Link K V).Agrees k x := by
  by_cases hset : .set k (info k) ∈ us
  · by_cases hx : x = none
    · by_cases hunset : .unset k ∈ l.owed
      · left
        rw [final, effect_append, hordered.effect_eq_none hunset, hx]
      · exact Or.inr (Or.inr ⟨hx, ⟨_, hset⟩, hunset⟩)
    · obtain ⟨heq, -, hunset⟩ := hsome hx
      left
      have hlist : ∀ y, effect k us y = some (info k) := fun y =>
        effect_of_mem hset rfl fun u hu hkey => by rw [hpending u hu, hkey]; rfl
      rw [final, effect_append, effect_append, hlist, heq]
      apply effect_of_forall_eq
      intro u hu hkey
      rcases howed u hu with hnone | hvalue
      · -- an update that unsets the key is not on its way
        have heq := Update.eq_unset hnone
        rw [hkey] at heq
        exact absurd (heq ▸ hu) hunset
      · rw [hvalue, hkey]
  · have hx : x = none := by
      by_contra hx
      exact hset (hsome hx).2.1
    have hlist : ∀ y, effect k us y = y := fun y =>
      effect_of_forall_ne fun u hu hkey => by
        have heq := Update.eq_set (hpending u hu)
        rw [hkey] at heq
        exact hset (heq ▸ hu)
    have hfinal : ({ l with pending := us, listed := true } : Link K V).final k = l.final k := by
      simp [final, effect_append, hlist, hempty]
    left
    rw [hfinal]
    rcases h with heq | ⟨-, hnone⟩ | ⟨-, ⟨v, hv⟩, -⟩
    · exact heq
    · rw [hnone, hx]
    · rw [hempty] at hv
      cases hv

/-! ## The replica receives -/

theorem Agrees.deliver {value : K → Option V} (h : l.Agrees k x) (hsent : l.sent = us ++ rest)
    (hvalue : value k = effect k us (l.value k)) :
    ({ l with sent := rest, value } : Link K V).Agrees k x := by
  have hfinal : ({ l with sent := rest, value } : Link K V).final k = l.final k := by
    simp only [final, hsent, hvalue, effect_append]
  rw [Agrees, hfinal]
  exact h

end Link
end Updates
