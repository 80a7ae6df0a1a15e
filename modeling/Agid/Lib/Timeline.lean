import Mathlib

/-!
# Spans of time

A history in which each entry holds from its own start to the start of the next.  The spans part
the time from the first start on exactly where the starts increase, and then the span that holds at
a time is that of the latest entry by then.
-/

namespace Timeline

variable {ε σ τ : Type*} [LinearOrder τ]

section Spans

variable (start : ε → σ)

def spans : List ε → List (ε × Option σ)
  | [] => []
  | [e] => [(e, none)]
  | e :: e' :: l => (e, some (start e')) :: spans (e' :: l)

/-- Ending at `stop` what has no end. -/
def close (stop : σ) (p : ε × Option σ) : ε × Option σ := (p.1, p.2.or (some stop))

theorem spans_concat (e : ε) : ∀ l : List ε,
    spans start (l ++ [e]) = (spans start l).map (close (start e)) ++ [(e, none)]
  | [] => rfl
  | [_] => rfl
  | a :: b :: l => by
    have ih := spans_concat e (b :: l)
    rw [List.cons_append] at ih
    rw [List.cons_append, List.cons_append, spans, ih]
    rfl

theorem map_fst_spans : ∀ l : List ε, (spans start l).map Prod.fst = l
  | [] => rfl
  | [_] => rfl
  | a :: b :: l => by rw [spans, List.map_cons, map_fst_spans (b :: l)]

/-- Only the last has no end. -/
theorem spans_eq_concat : ∀ {l : List ε} {e : ε}, l.getLast? = some e →
    ∃ closed, spans start l = closed ++ [(e, none)] ∧ ∀ p ∈ closed, p.2 ≠ none
  | [a], e, h => by
    cases h
    exact ⟨[], rfl, by simp⟩
  | a :: b :: l, e, h => by
    obtain ⟨closed, heq, hclosed⟩ := spans_eq_concat (l := b :: l) (e := e) (by simpa using h)
    refine ⟨(a, some (start b)) :: closed, by rw [spans, heq, List.cons_append], fun p hp => ?_⟩
    rcases List.mem_cons.1 hp with rfl | hp
    · simp
    · exact hclosed p hp

theorem exists_start_of_stop {stop : σ} : ∀ {l : List ε}, ∀ p ∈ spans start l, p.2 = some stop →
    ∃ e ∈ l, start e = stop
  | [_], p, hp, hstop => by
    rw [List.mem_singleton.1 hp] at hstop
    cases hstop
  | a :: b :: l, p, hp, hstop => by
    rcases List.mem_cons.1 hp with rfl | hp
    · cases hstop
      exact ⟨b, by simp, rfl⟩
    · obtain ⟨e, he, heq⟩ := exists_start_of_stop p hp hstop
      exact ⟨e, List.mem_cons_of_mem _ he, heq⟩

variable (key : σ → τ)

/-- The span holds at `t`. -/
def Within (p : ε × Option σ) (t : τ) : Prop :=
  key (start p.1) ≤ t ∧ ∀ stop, p.2 = some stop → t < key stop

def Increasing (l : List ε) : Prop := l.Pairwise fun a b => key (start a) < key (start b)

variable {start key}

/-- Spans that are not empty are those of starts that increase. -/
theorem increasing_iff : ∀ {l : List ε},
    Increasing start key l ↔ ∀ p ∈ spans start l, ∃ t, Within start key p t
  | [] => by simp [Increasing, spans]
  | [e] => by
    refine iff_of_true (List.pairwise_singleton _ _) fun p hp => ⟨key (start e), ?_⟩
    rw [List.mem_singleton.1 hp]
    exact ⟨le_rfl, by simp⟩
  | a :: b :: l => by
    rw [spans, List.forall_mem_cons, ← increasing_iff, Increasing, List.pairwise_cons]
    constructor
    · rintro ⟨hfirst, hrest⟩
      refine ⟨⟨key (start a), le_rfl, fun stop hstop => ?_⟩, hrest⟩
      cases hstop
      exact hfirst b List.mem_cons_self
    · rintro ⟨⟨t, hle, hlt⟩, hrest⟩
      have hab : key (start a) < key (start b) := hle.trans_lt (hlt _ rfl)
      refine ⟨fun c hc => ?_, hrest⟩
      rcases List.mem_cons.1 hc with rfl | hc
      · exact hab
      · exact hab.trans ((List.pairwise_cons.1 hrest).1 c hc)

theorem mem_of_mem_spans {l : List ε} {p : ε × Option σ} (h : p ∈ spans start l) : p.1 ∈ l := by
  have := List.mem_map_of_mem (f := Prod.fst) h
  rwa [map_fst_spans] at this

/-- Where the starts increase, a span holds at a time if its entry is the latest by then. -/
theorem within_iff {t : τ} : ∀ {l : List ε}, Increasing start key l → ∀ p ∈ spans start l,
    (Within start key p t ↔
      key (start p.1) ≤ t ∧ ∀ e ∈ l, key (start e) ≤ t → key (start e) ≤ key (start p.1))
  | [a], _, p, hp => by
    cases List.mem_singleton.1 hp
    simp [Within]
  | a :: b :: l, h, p, hp => by
    obtain ⟨hfirst, hrest⟩ := List.pairwise_cons.1 h
    rcases List.mem_cons.1 hp with rfl | hrestp
    · refine and_congr_right fun _ => ⟨fun hlt e he hle => ?_, fun hle stop hstop => ?_⟩
      · rcases List.mem_cons.1 he with rfl | he
        · exact le_rfl
        · have hbe : key (start b) ≤ key (start e) := by
            rcases List.mem_cons.1 he with rfl | he
            · exact le_rfl
            · exact ((List.pairwise_cons.1 hrest).1 e he).le
          exact absurd (hlt _ rfl) (not_lt.2 (hbe.trans hle))
      · cases hstop
        by_contra hge
        exact absurd (hle b (by simp) (not_lt.1 hge)) (not_le.2 (hfirst b List.mem_cons_self))
    · rw [within_iff hrest p hrestp]
      refine and_congr_right fun _ => ⟨fun hle e he he' => ?_, fun hle e he =>
        hle e (List.mem_cons_of_mem _ he)⟩
      rcases List.mem_cons.1 he with rfl | he
      · exact (hfirst _ (mem_of_mem_spans hrestp)).le
      · exact hle e he he'

theorem exists_within (start : ε → σ) {t : τ} : ∀ {l : List ε}, (∃ e ∈ l, key (start e) ≤ t) →
    ∃ p ∈ spans start l, Within start key p t
  | [a], ⟨e, he, hle⟩ => by
    rw [List.mem_singleton.1 he] at hle
    exact ⟨(a, none), List.mem_singleton_self _, hle, by simp⟩
  | a :: b :: l, ⟨e, he, hle⟩ => by
    by_cases hrest : ∃ e ∈ b :: l, key (start e) ≤ t
    · obtain ⟨p, hp, hwithin⟩ := exists_within start hrest
      exact ⟨p, List.mem_cons_of_mem _ hp, hwithin⟩
    · simp only [not_exists, not_and, not_le] at hrest
      rcases List.mem_cons.1 he with rfl | he
      · refine ⟨(e, some (start b)), List.mem_cons_self, hle, fun stop hstop => ?_⟩
        cases hstop
        exact hrest b List.mem_cons_self
      · exact absurd hle (not_le.2 (hrest e he))

theorem disjoint {t : τ} : ∀ {l : List ε}, Increasing start key l →
    (spans start l).Pairwise fun p q => Within start key p t → ¬ Within start key q t
  | [], _ => List.Pairwise.nil
  | [_], _ => List.pairwise_singleton _ _
  | a :: b :: l, h => by
    have hrest := (List.pairwise_cons.1 h).2
    refine List.pairwise_cons.2 ⟨fun q hq hp hq' => ?_, disjoint hrest⟩
    have hbq : key (start b) ≤ key (start q.1) := by
      rcases List.mem_cons.1 (mem_of_mem_spans hq) with hb | hb
      · rw [hb]
      · exact ((List.pairwise_cons.1 hrest).1 q.1 hb).le
    exact absurd (hp.2 _ rfl) (not_lt.2 (hbq.trans hq'.1))

end Spans

end Timeline
