/-
  Loops over lists whose body may throw.

  An exception of the body ends the loop, and what the earlier iterations have
  done stays.

  * `fst_forEach`: if the body throws on some elements and on no others, the
    loop does the work of the elements before the first of them;
  * `forall_mem_takeWhile`: the elements of a kind are all reached exactly if
    the body throws on none of them and on none before them.
-/
import Mathlib.Data.List.Pairwise
import Mathlib.Data.List.TakeWhile

namespace Loop

variable {σ α ε : Type*}

/-- `for (a in as) body(a)`: the state at the end of the loop, and the exception that ended it. -/
def forEach (body : σ → α → Except ε σ) : σ → List α → σ × Option ε
  | s, [] => (s, none)
  | s, a :: as =>
    match body s a with
    | .ok s' => forEach body s' as
    | .error e => (s, some e)

section
variable {body : σ → α → Except ε σ} {f : σ → α → σ} {p : α → Bool}

/-- **Loops.**  The iterations before the first exception take effect, and no others. -/
theorem fst_forEach (hok : ∀ s a, p a = true → body s a = .ok (f s a))
    (herr : ∀ s a, p a = false → ∃ e, body s a = .error e) (s : σ) (as : List α) :
    (forEach body s as).1 = (as.takeWhile p).foldl f s := by
  induction as generalizing s with
  | nil => rfl
  | cons a as ih =>
    cases ha : p a with
    | true =>
      rw [forEach, hok s a ha, List.takeWhile_cons_of_pos ha, List.foldl_cons]
      exact ih (f s a)
    | false =>
      obtain ⟨e, he⟩ := herr s a ha
      rw [forEach, he, List.takeWhile_cons_of_neg (by simp [ha])]
      rfl

/-- The elements with `q` all come before the first failure, exactly if no
    failure comes before them or is one of them. -/
theorem forall_mem_takeWhile {q : α → Bool} {as : List α} (hn : as.Nodup) :
    (∀ a ∈ as, q a = true → a ∈ as.takeWhile p) ↔
      (∀ a ∈ as, q a = true → p a = true) ∧ as.Pairwise fun a b => q b = true → p a = true := by
  induction as with
  | nil => simp
  | cons a as ih =>
    obtain ⟨ha, hn⟩ := List.nodup_cons.1 hn
    rw [List.forall_mem_cons, List.forall_mem_cons, List.pairwise_cons]
    by_cases hp : p a = true
    · rw [List.takeWhile_cons_of_pos hp]
      have htail : (∀ b ∈ as, q b = true → b ∈ a :: as.takeWhile p) ↔
          ∀ b ∈ as, q b = true → b ∈ as.takeWhile p := by
        refine forall₂_congr fun b hb => imp_congr_right fun _ => ?_
        rw [List.mem_cons, or_iff_right]
        rintro rfl
        exact ha hb
      rw [htail, ih hn]
      exact ⟨fun h => ⟨⟨fun _ => hp, h.2.1⟩, fun _ _ _ => hp, h.2.2⟩,
        fun h => ⟨fun _ => List.mem_cons_self, h.1.2, h.2.2⟩⟩
    · rw [List.takeWhile_cons_of_neg hp]
      constructor
      · rintro ⟨hq, h⟩
        have hnone : ∀ b ∈ as, ¬ q b = true := fun b hb hqb => List.not_mem_nil (h b hb hqb)
        refine ⟨⟨fun hqa => absurd (hq hqa) List.not_mem_nil, fun b hb hqb =>
          absurd hqb (hnone b hb)⟩, fun b hb hqb => absurd hqb (hnone b hb), ?_⟩
        exact ((ih hn).1 fun b hb hqb => absurd hqb (hnone b hb)).2
      · rintro ⟨⟨hqa, -⟩, h, -⟩
        exact ⟨fun hq => absurd (hqa hq) hp, fun b hb hqb => absurd (h b hb hqb) hp⟩

end

end Loop
