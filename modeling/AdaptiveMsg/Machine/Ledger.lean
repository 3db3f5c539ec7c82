import Mathlib.Data.List.Infix

/-!
# Machine — requests answered in order

A caller asks one request at a time, and its peer answers them in order, one reply each.  A reply
says nothing of its request: replies reach an inbox, and when the caller gives a request up it
counts one more reply as stale, to be dropped when it comes.

`Ledger.Balanced`: as long as replies can still be taken, the requests given up whose reply is to
come are the ones right before the current one, and their number is the count.  The reply taken with
no stale one to come is then the current request's (`Balanced.head`).
-/

/-- What a caller has asked, what was answered, and what it has given up. -/
structure Ledger (ρ : Type*) where
  /-- The replies that have not been taken. -/
  inbox : List ρ
  /-- All replies, in order. -/
  replies : List ρ
  /-- The requests asked, numbered from 0. -/
  asked : Nat
  /-- The replies to be dropped. -/
  stale : Nat
  /-- The requests given up, in order. -/
  givenUp : List Nat
  /-- The request whose reply the caller waits for. -/
  current : Option Nat

namespace Ledger

variable {ρ : Type*} {l l' : Ledger ρ} {lost lost' : Prop} {k : Nat} {r : ρ} {rest : List ρ}

def taken (l : Ledger ρ) : Nat := l.replies.length - l.inbox.length

/-- The requests asked before the current one. -/
def before (l : Ledger ρ) : Nat := l.current.getD l.asked

/-- The requests given up whose reply has not been taken. -/
def late (l : Ledger ρ) : List Nat := l.givenUp.filter (l.taken ≤ ·)

/-- The count is right, and the late replies come before the current one.  `lost` says that no reply
will be taken any more. -/
structure Balanced (l : Ledger ρ) (lost : Prop) : Prop where
  inbox : l.inbox <:+ l.replies
  answered : l.replies.length ≤ l.asked
  current : ∀ k, l.current = some k → k + 1 = l.asked
  taken_le : l.taken ≤ l.before
  counted : l.stale = l.late.length
  outstanding : lost ∨ l.late = List.range' l.taken l.stale ∧ l.taken + l.stale = l.before

theorem filter_succ_le (l : List Nat) (c : Nat) :
    l.filter (c + 1 ≤ ·) = (l.filter (c ≤ ·)).filter (c + 1 ≤ ·) := by
  rw [List.filter_filter]
  refine List.filter_congr fun k _ => ?_
  rw [← Bool.decide_and, decide_eq_decide]
  omega

theorem filter_range'_succ (c n : Nat) :
    (List.range' c (n + 1)).filter (c + 1 ≤ ·) = List.range' (c + 1) n := by
  rw [List.range'_succ, List.filter_cons_of_neg (by simp)]
  refine List.filter_eq_self.mpr fun k hk => ?_
  have := (List.mem_range'_1.mp hk).1
  simpa using this

/-- The front of a suffix, in the list. -/
theorem getElem?_of_suffix_cons (h : l.inbox <:+ l.replies) (hin : l.inbox = r :: rest) :
    l.replies[l.taken]? = some r := by
  obtain ⟨before, hb⟩ := h
  rw [taken, ← hb, List.length_append, Nat.add_sub_cancel, hin]
  simp

theorem Balanced.mono (hl : lost → lost') (h : l.Balanced lost) : l.Balanced lost' :=
  { h with outstanding := h.outstanding.imp_left hl }

/-- While the caller waits, the late requests are the ones right before the current one. -/
theorem Balanced.waiting (h : l.Balanced lost) (hlost : ¬lost) (hk : l.current = some k) :
    l.late = List.range' l.taken l.stale ∧ l.taken + l.stale = k := by
  have hout := h.outstanding.resolve_left hlost
  rwa [before, hk, Option.getD_some] at hout

/-! ### What the caller and its peer do -/

/-- The new request is the current one, so the ones before it are the same. -/
theorem Balanced.ask (h : l.Balanced lost) (hlost : ¬lost) (hnone : l.current = none) :
    Balanced { l with asked := l.asked + 1, current := some l.asked } lost' := by
  have hbefore : l.before = l.asked := by rw [before, hnone, Option.getD_none]
  have hout := h.outstanding.resolve_left hlost
  have hle := h.taken_le
  rw [hbefore] at hout hle
  refine ⟨h.inbox, Nat.le_succ_of_le h.answered, fun k hk => ?_, hle, h.counted, .inr hout⟩
  cases hk
  rfl

theorem Balanced.reply (h : l.Balanced lost) (r : ρ) (hlt : l.replies.length < l.asked) :
    Balanced { l with inbox := l.inbox ++ [r], replies := l.replies ++ [r] } lost := by
  set l' : Ledger ρ := { l with inbox := l.inbox ++ [r], replies := l.replies ++ [r] }
  have hle := h.inbox.length_le
  have ht : l'.taken = l.taken := by
    simp only [taken, l', List.length_append]
    omega
  have hlate : l'.late = l.late := by simp only [late, ht, l']
  refine ⟨?_, by simpa [l', Nat.succ_le_iff] using hlt, h.current, by rw [ht]; exact h.taken_le,
    by rw [hlate]; exact h.counted, by rw [hlate, ht]; exact h.outstanding⟩
  obtain ⟨before, hb⟩ := h.inbox
  exact ⟨before, by rw [← List.append_assoc, hb]⟩

/-- Taking the front of the inbox takes one more reply. -/
theorem Balanced.front (h : l.Balanced lost) (l' : Ledger ρ) (hin : l.inbox = r :: rest)
    (hi : l'.inbox = rest) (hr : l'.replies = l.replies) (hg : l'.givenUp = l.givenUp) :
    l'.inbox <:+ l'.replies ∧ l'.taken = l.taken + 1 ∧
      l'.late = l.late.filter (l.taken + 1 ≤ ·) := by
  have hle := h.inbox.length_le
  have ht : l'.taken = l.taken + 1 := by
    simp only [taken, hi, hr, hin, List.length_cons] at hle ⊢
    omega
  refine ⟨?_, ht, by rw [late, ht, hg, filter_succ_le]; rfl⟩
  rw [hi, hr]
  exact (List.suffix_cons r rest).trans (hin ▸ h.inbox)

/-- A reply counted as stale is the one to the first request not answered yet, which was given
up. -/
theorem Balanced.discard (h : l.Balanced lost) (hlost : ¬lost) (hk : l.current = some k)
    (hin : l.inbox = r :: rest) (hst : 0 < l.stale) :
    Balanced { l with stale := l.stale - 1, inbox := rest, current := some k } lost' := by
  obtain ⟨n, hn⟩ : ∃ n, l.stale = n + 1 := ⟨_, (Nat.succ_pred_eq_of_pos hst).symm⟩
  obtain ⟨hlate, hsum⟩ := h.waiting hlost hk
  set l' : Ledger ρ := { l with stale := l.stale - 1, inbox := rest, current := some k }
  have hst' : l'.stale = n := by
    show l.stale - 1 = n
    omega
  have hbefore : l'.before = k := rfl
  obtain ⟨hi, ht, hlate'⟩ := h.front l' hin rfl rfl rfl
  rw [hlate, hn, filter_range'_succ] at hlate'
  refine ⟨hi, h.answered, fun _ hk' => h.current _ (hk.trans hk'), ?_, ?_, .inr ⟨?_, ?_⟩⟩
  · rw [ht, hbefore]
    omega
  · rw [hst', hlate', List.length_range']
  · rw [hst', hlate', ht]
  · rw [hst', ht, hbefore]
    omega

/-- With no stale reply to come, the front of the inbox is the reply to the current request. -/
theorem Balanced.head (h : l.Balanced lost) (hlost : ¬lost) (hk : l.current = some k)
    (hin : l.inbox = r :: rest) (hst : l.stale = 0) : l.replies[k]? = some r := by
  obtain ⟨-, hsum⟩ := h.waiting hlost hk
  rw [hst, Nat.add_zero] at hsum
  exact hsum ▸ getElem?_of_suffix_cons h.inbox hin

theorem Balanced.take (h : l.Balanced lost) (hlost : ¬lost) (hk : l.current = some k)
    (hin : l.inbox = r :: rest) (hst : l.stale = 0) :
    Balanced { l with inbox := rest, current := none } lost' := by
  obtain ⟨hlate, hsum⟩ := h.waiting hlost hk
  have hlast := h.current k hk
  set l' : Ledger ρ := { l with inbox := rest, current := none }
  have hst' : l'.stale = 0 := hst
  have hbefore : l'.before = l.asked := rfl
  obtain ⟨hi, ht, hlate'⟩ := h.front l' hin rfl rfl rfl
  rw [hlate, hst, List.range'_zero, List.filter_nil] at hlate'
  refine ⟨hi, h.answered, nofun, ?_, ?_, .inr ⟨?_, ?_⟩⟩
  · rw [ht, hbefore]
    omega
  · rw [hst', hlate', List.length_nil]
  · rw [hst', hlate', List.range'_zero]
  · rw [hst', ht, hbefore]
    omega

/-- The caller stops, and no reply will be taken any more. -/
theorem Balanced.stop (h : l.Balanced lost) (hk : l.current = some k) (hlost : lost') :
    Balanced { l with current := none } lost' := by
  have hle := h.taken_le
  have hlast := h.current k hk
  rw [before, hk, Option.getD_some] at hle
  exact ⟨h.inbox, h.answered, nofun, Nat.le_trans hle (by show k ≤ l.asked; omega), h.counted,
    .inl hlost⟩

/-- A request without its reply becomes a late one. -/
theorem late_append (hg : l'.givenUp = l.givenUp ++ [k]) (ht : l'.taken = l.taken)
    (hle : l.taken ≤ k) : l'.late = l.late ++ [k] := by
  rw [late, ht, hg, List.filter_append, List.filter_cons_of_pos (by simpa using hle),
    List.filter_nil]
  rfl

/-- The caller gives its request up, and counts it. -/
theorem Balanced.giveUp (h : l.Balanced lost) (hlost : ¬lost) (hk : l.current = some k) :
    Balanced { l with stale := l.stale + 1, givenUp := l.givenUp ++ [k], current := none }
      lost' := by
  obtain ⟨hlate, hsum⟩ := h.waiting hlost hk
  have hlast := h.current k hk
  set l' : Ledger ρ := { l with stale := l.stale + 1, givenUp := l.givenUp ++ [k], current := none }
  have ht : l'.taken = l.taken := rfl
  have hst : l'.stale = l.stale + 1 := rfl
  have hbefore : l'.before = l.asked := rfl
  have hlate' : l'.late = l.late ++ [k] := late_append rfl ht (by omega)
  refine ⟨h.inbox, h.answered, nofun, ?_, ?_, .inr ⟨?_, ?_⟩⟩
  · rw [ht, hbefore]
    omega
  · rw [hst, hlate', List.length_append, ← h.counted, List.length_singleton]
  · rw [hst, hlate', hlate, ht, List.range'_1_concat, hsum]
  · rw [hst, ht, hbefore]
    omega

end Ledger
