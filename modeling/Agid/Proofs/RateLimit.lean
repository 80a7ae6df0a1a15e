import Agid.Proofs.SecurePos
import Agid.Proofs.TextBytes
import Agid.RateLimit

/-!
# Rate limits hold when the calls of a bucket do not overlap

A call reads what is used and which requests are known before it waits for a signature, and writes
after it.  When no other call of the bucket comes between, what it has read is still so when it
writes: the entry that it holds is the one of the bucket, or the bucket has none yet.
-/

namespace Agid.RateLimit

variable {P : Platform} {s s' : Ledger} {call call' : Call} {request : Request} {clock : ℤ}
  {object : ℕ} {bucket : JsString} {world world' : Tasks.World Ledger Call}

/-! ## Entries -/

/-- No entry belongs to two buckets. -/
structure Ledger.Separate (s : Ledger) : Prop where
  lt : ∀ bucket object, s.buckets.get? bucket = some object → object < s.objects.length
  inj : ∀ bucket bucket' object, s.buckets.get? bucket = some object →
    s.buckets.get? bucket' = some object → bucket = bucket'

/-- The entry of the bucket, or a new one that no bucket has. -/
structure Opened (s : Ledger) (bucket : JsString) (object : ℕ) : Prop where
  lt : object < s.objects.length
  only : ∀ bucket', s.buckets.get? bucket' = some object → bucket' = bucket
  stored : s.buckets.get? bucket = some object
    ∨ (s.buckets.get? bucket = none ∧ s.entry object = ⟨0, []⟩)

theorem Ledger.get?_of (first : Record JsString Entry) (bucket : JsString) :
    (Ledger.of first).get? bucket = first.get? bucket := by
  have lookup_zipIdx : ∀ (l : List (JsString × Entry)) (before : List Entry),
      (Record.lookup bucket ((l.map Prod.fst).zipIdx before.length)).map
          ((before ++ l.map Prod.snd).getD · ⟨0, []⟩)
        = Record.lookup bucket l := by
    intro l
    induction l with
    | nil => intro before; rfl
    | cons e l ih =>
      intro before
      have hl := ih (before ++ [e.2])
      rw [List.length_append, List.length_singleton, List.append_assoc,
        List.singleton_append] at hl
      simp only [List.map_cons, List.zipIdx_cons, Record.lookup]
      split_ifs with he
      · simp
      · exact hl
  exact lookup_zipIdx first.entries []

theorem Ledger.separate_of (first : Record JsString Entry) : (Ledger.of first).Separate where
  lt bucket object h := by
    have hmem := List.mem_zipIdx (Record.mem_of_lookup h)
    simpa [Ledger.of, Record.values, Record.keys] using hmem.2.1
  inj bucket bucket' object h h' := by
    have hmem := List.mem_zipIdx (Record.mem_of_lookup h)
    have hmem' := List.mem_zipIdx (Record.mem_of_lookup h')
    rw [hmem.2.2, hmem'.2.2]

theorem Opened.usage (h : Opened s bucket object) : s.usage bucket = (s.entry object).count := by
  unfold Ledger.usage Ledger.get?
  rcases h.stored with hb | ⟨hb, he⟩ <;> rw [hb]
  · rfl
  · rw [he]
    rfl

theorem Opened.frame (h : Opened s bucket object) (hlen : s.objects.length ≤ s'.objects.length)
    (hentry : s'.entry object = s.entry object)
    (hbucket : s'.buckets.get? bucket = s.buckets.get? bucket)
    (honly : ∀ bucket', s'.buckets.get? bucket' = some object → bucket' = bucket) :
    Opened s' bucket object :=
  ⟨h.lt.trans_le hlen, honly, by rw [hbucket, hentry]; exact h.stored⟩

/-! ## Opening an entry and putting it back -/

theorem openEntry_buckets (s : Ledger) (bucket : JsString) :
    (openEntry s bucket).2.buckets = s.buckets := by
  unfold openEntry
  split <;> rfl

theorem openEntry_length (s : Ledger) (bucket : JsString) :
    s.objects.length ≤ (openEntry s bucket).2.objects.length := by
  unfold openEntry
  split
  · exact le_rfl
  · simp

/-- A new entry reads as one that is not there. -/
theorem openEntry_entry (s : Ledger) (bucket : JsString) (object : ℕ) :
    (openEntry s bucket).2.entry object = s.entry object := by
  unfold openEntry
  split
  · rfl
  · simp only [Ledger.entry, List.getD_eq_getElem?_getD]
    rcases Nat.lt_trichotomy object s.objects.length with h | rfl | h
    · rw [List.getElem?_append_left h]
    · simp
    · rw [List.getElem?_eq_none h.le, List.getElem?_eq_none (by simp; omega)]

theorem openEntry_usage (s : Ledger) (bucket bucket' : JsString) :
    (openEntry s bucket).2.usage bucket' = s.usage bucket' := by
  unfold Ledger.usage Ledger.get?
  rw [openEntry_buckets, show (openEntry s bucket).2.entry = s.entry from
    funext (openEntry_entry s bucket)]

theorem openEntry_separate (hs : s.Separate) (bucket : JsString) :
    (openEntry s bucket).2.Separate := by
  have hlen := openEntry_length s bucket
  constructor
  · intro b o h
    rw [openEntry_buckets] at h
    exact (hs.lt b o h).trans_le hlen
  · intro b b' o h h'
    rw [openEntry_buckets] at h h'
    exact hs.inj b b' o h h'

theorem openEntry_opened (hs : s.Separate) (bucket : JsString) :
    Opened (openEntry s bucket).2 bucket (openEntry s bucket).1 := by
  unfold openEntry
  rcases hb : s.buckets.get? bucket with _ | object
  · refine ⟨by simp, fun b h => ?_, Or.inr ⟨hb, ?_⟩⟩
    · exact absurd (hs.lt b _ h) (lt_irrefl _)
    · simp [Ledger.entry]
  · exact ⟨hs.lt bucket object hb, fun b h => hs.inj b bucket object h hb, Or.inl hb⟩

/-- A new entry is none that another call holds. -/
theorem openEntry_ne {bucket' : JsString} (h : Opened s bucket' object)
    (hne : bucket ≠ bucket') : (openEntry s bucket).1 ≠ object := by
  unfold openEntry
  rcases hb : s.buckets.get? bucket with _ | object'
  · exact fun heq => absurd h.lt (by rw [← heq]; exact lt_irrefl _)
  · rintro rfl
    exact hne (h.only bucket hb)

theorem commit_buckets (request : Request) (object : ℕ) (s : Ledger) (b : JsString) :
    (commit request object s).buckets.get? b
      = if request.bucket = b then some object else s.buckets.get? b :=
  Record.get?_set ..

theorem commit_entry_of_ne (request : Request) {object object' : ℕ} (s : Ledger)
    (hne : object ≠ object') :
    (commit request object s).entry object' = s.entry object' := by
  simp only [commit, Ledger.entry, List.getD_eq_getElem?_getD, List.getElem?_set_ne hne]

theorem commit_entry (h : object < s.objects.length) :
    (commit request object s).entry object
      = ⟨(s.entry object).count + 1,
          addNew (s.entry object).requestNullifiers request.nullifier⟩ := by
  simp only [commit, Ledger.entry, List.getD_eq_getElem?_getD, List.getElem?_set_self h,
    Option.getD_some]

theorem commit_separate (hs : s.Separate) (h : Opened s request.bucket object) :
    (commit request object s).Separate := by
  constructor
  · intro b o hb
    rw [commit_buckets] at hb
    simp only [commit, List.length_set]
    split_ifs at hb
    · cases hb
      exact h.lt
    · exact hs.lt b o hb
  · intro b b' o hb hb'
    rw [commit_buckets] at hb hb'
    split_ifs at hb hb' with h₁ h₂ h₂
    · exact h₁.symm.trans h₂
    · cases hb
      exact (h.only b' hb').symm ▸ h₁.symm
    · cases hb'
      exact (h.only b hb).trans h₂
    · exact hs.inj b b' o hb hb'

theorem commit_usage (h : Opened s request.bucket object) (b : JsString) :
    (commit request object s).usage b = s.usage b + if request.bucket = b then 1 else 0 := by
  by_cases hb : request.bucket = b
  · subst hb
    rw [if_pos rfl, h.usage, Ledger.usage, Ledger.get?, commit_buckets, if_pos rfl]
    simp [commit_entry h.lt]
  · rw [if_neg hb, add_zero, Ledger.usage, Ledger.usage, Ledger.get?, Ledger.get?, commit_buckets,
      if_neg hb]
    rcases ho : s.buckets.get? b with _ | o
    · rfl
    · have hne : object ≠ o := by
        rintro rfl
        exact hb (h.only b ho).symm
      simp [commit_entry_of_ne request s hne]

theorem mem_addNew {nullifiers : List JsString} {nullifier n : JsString} :
    n ∈ addNew nullifiers nullifier ↔ n ∈ nullifiers ∨ n = nullifier := by
  unfold addNew
  split_ifs with h
  · exact ⟨Or.inl, fun hn => hn.elim id fun he => he ▸ h⟩
  · simp

/-! ## What a call has found -/

/-- The entry does not know the request, and has room for it. -/
structure Room (s : Ledger) (request : Request) (object : ℕ) : Prop where
  new : request.nullifier ∉ (s.entry object).requestNullifiers
  lt : (s.entry object).count < request.quota

def Phase.Fits (s : Ledger) (request : Request) : Phase → Prop
  | .waiting => True
  | .hashing object => Opened s request.bucket object
  | .verifying object found => Opened s request.bucket object
    ∧ (found.replay = false → found.quotaExceeded = false → Room s request object)
  | .verified object verification => Opened s request.bucket object
    ∧ (verification.valid = true → Room s request object)
  | .returned verification _ => verification.valid = true →
    ∃ object, s.buckets.get? request.bucket = some object
      ∧ request.nullifier ∈ (s.entry object).requestNullifiers

theorem conclude_valid {envelope : AnonymousRateLimitProofEnvelope} {found : Found}
    {signatureValid : Option Bool} (h : (conclude envelope found signatureValid).valid = true) :
    found.replay = false ∧ found.quotaExceeded = false := by
  simp only [conclude, Bool.and_eq_true, Bool.not_eq_true'] at h
  exact ⟨h.2, h.1.2⟩

theorem find_room (hopen : Opened s request.bucket object)
    (hnormal : normalizeText P request.nullifier = request.nullifier)
    (hne : request.nullifier ≠ [])
    (hreplay : (find P request.envelope request.options (s.entry object).requestNullifiers s
      clock).replay = false)
    (hquota : (find P request.envelope request.options (s.entry object).requestNullifiers s
      clock).quotaExceeded = false) : Room s request object := by
  constructor
  · intro hmem
    have hset : request.nullifier ∈ registeredRequestSet P (s.entry object).requestNullifiers :=
      List.mem_filter.2 ⟨List.mem_map.2 ⟨_, hmem, hnormal⟩, by simpa using hne⟩
    rw [find, List.contains_eq_mem, decide_eq_false_iff_not] at hreplay
    exact hreplay hset
  · have hlt : max 0 (s.usage request.bucket) < request.quota := by
      rw [← not_le]
      exact of_decide_eq_false hquota
    rw [← hopen.usage]
    exact (le_max_right 0 _).trans_lt hlt

theorem check_fits (hopen : Opened s request.bucket object)
    (hnormal : normalizeText P request.nullifier = request.nullifier)
    (hne : request.nullifier ≠ []) : (check P request object s clock).Fits s request := by
  unfold check
  split
  · exact ⟨hopen, find_room hopen hnormal hne⟩
  · exact ⟨hopen, fun h => find_room hopen hnormal hne (conclude_valid h).1 (conclude_valid h).2⟩

/-! ## What a step does -/

/-- The entry that a call works on. -/
def Phase.object? : Phase → Option ℕ
  | .hashing object | .verifying object _ | .verified object _ => some object
  | .waiting | .returned _ _ => none

inductive Advances (P : Platform) (clock : ℤ) (s : Ledger) : Call → Ledger → Call → Prop
  | opens {request : Request} {phase : Phase}
      (phase_eq : phase = .hashing (openEntry s request.bucket).1
        ∨ phase = check P request (openEntry s request.bucket).1
            (openEntry s request.bucket).2 clock) :
      Advances P clock s ⟨request, .waiting⟩ (openEntry s request.bucket).2 ⟨request, phase⟩
  | checks {request : Request} {object : ℕ} :
      Advances P clock s ⟨request, .hashing object⟩ s ⟨request, check P request object s clock⟩
  | verifies {request : Request} {object : ℕ} {found : Found} {verification : Verification}
      (valid : verification.valid = true → found.replay = false ∧ found.quotaExceeded = false) :
      Advances P clock s ⟨request, .verifying object found⟩ s
        ⟨request, .verified object verification⟩
  | refuses {request : Request} {object : ℕ} {verification : Verification} {used : ℤ}
      (valid : verification.valid = false) :
      Advances P clock s ⟨request, .verified object verification⟩ s
        ⟨request, .returned verification used⟩
  | accepts {request : Request} {object : ℕ} {verification : Verification} {used : ℤ}
      (valid : verification.valid = true) :
      Advances P clock s ⟨request, .verified object verification⟩ (commit request object s)
        ⟨request, .returned verification used⟩

theorem advance_advances (h : advance P clock s call = some (s', call')) :
    Advances P clock s call s' call' := by
  obtain ⟨request, phase⟩ := call
  unfold advance at h
  cases phase with
  | waiting =>
    simp only at h
    split at h <;> cases h
    · exact .opens (Or.inl rfl)
    · exact .opens (Or.inr rfl)
  | hashing object =>
    cases h
    exact .checks
  | verifying object found =>
    simp only at h
    split at h <;> cases h
    · exact .verifies conclude_valid
    · exact .verifies fun hv => by cases hv
  | verified object verification =>
    simp only at h
    split_ifs at h with hv <;> cases h
    · exact .accepts hv
    · exact .refuses (by simpa using hv)
  | returned verification used => cases h

theorem check_object (request : Request) (object : ℕ) :
    (check P request object s clock).object? = some object := by
  unfold check
  split <;> rfl

theorem check_accepted (request : Request) (object : ℕ) :
    (⟨request, check P request object s clock⟩ : Call).accepted = false := by
  unfold check
  split <;> rfl

theorem running_iff : call.running = true ↔ ∃ object, call.phase.object? = some object := by
  unfold Call.running Phase.object?
  cases call.phase <;> simp

theorem Advances.request_eq (h : Advances P clock s call s' call') :
    call'.request = call.request := by
  cases h <;> rfl

/-! ## The rule -/

/-- Two calls hold different entries, and one request is accepted for one of them. -/
structure Apart (call other : Call) : Prop where
  buckets : ∀ object object', call.phase.object? = some object →
    other.phase.object? = some object' → object ≠ object'
      ∧ call.request.bucket ≠ other.request.bucket
  once : call.request.nullifier = other.request.nullifier →
    ¬ (call.accepted = true ∧ other.accepted = true)

/-- What a step leaves in the ledger. -/
structure Ledger.Keeps (s s' : Ledger) : Prop where
  length : s.objects.length ≤ s'.objects.length
  stored : ∀ bucket object, s.buckets.get? bucket = some object →
    s'.buckets.get? bucket = some object
  nullifiers : ∀ object nullifier, nullifier ∈ (s.entry object).requestNullifiers →
    nullifier ∈ (s'.entry object).requestNullifiers

theorem openEntry_keeps (s : Ledger) (bucket : JsString) : s.Keeps (openEntry s bucket).2 where
  length := openEntry_length s bucket
  stored b o h := by rwa [openEntry_buckets]
  nullifiers o n h := by rwa [openEntry_entry]

theorem commit_keeps (h : Opened s request.bucket object) :
    s.Keeps (commit request object s) where
  length := by simp [commit]
  stored b o hb := by
    rw [commit_buckets]
    split_ifs with heq
    · subst heq
      rcases h.stored with h | ⟨h, -⟩
      · exact h.symm.trans hb
      · rw [h] at hb
        cases hb
    · exact hb
  nullifiers o n hn := by
    by_cases ho : object = o
    · subst ho
      rw [commit_entry h.lt]
      exact mem_addNew.2 (Or.inl hn)
    · rwa [commit_entry_of_ne request s ho]

theorem Phase.Fits.frame {phase : Phase} (h : phase.Fits s request) (hkeeps : s.Keeps s')
    (hrunning : ∀ object, phase.object? = some object → Opened s request.bucket object →
      Opened s' request.bucket object ∧ s'.entry object = s.entry object) :
    phase.Fits s' request := by
  cases phase with
  | waiting => trivial
  | hashing object => exact (hrunning object rfl h).1
  | verifying object found =>
    obtain ⟨hopen, hentry⟩ := hrunning object rfl h.1
    exact ⟨hopen, fun hr hq =>
      ⟨hentry ▸ (h.2 hr hq).new, hentry ▸ (h.2 hr hq).lt⟩⟩
  | verified object verification =>
    obtain ⟨hopen, hentry⟩ := hrunning object rfl h.1
    exact ⟨hopen, fun hv => ⟨hentry ▸ (h.2 hv).new, hentry ▸ (h.2 hv).lt⟩⟩
  | returned verification used =>
    intro hv
    obtain ⟨object, hstored, hmem⟩ := h hv
    exact ⟨object, hkeeps.stored _ _ hstored, hkeeps.nullifiers _ _ hmem⟩

/-- The request of a call is as the condition has it, and what the call has found is so. -/
structure Own (P : Platform) (s : Ledger) (call : Call) : Prop where
  normal : normalizeText P call.request.nullifier = call.request.nullifier
  ne_nil : call.request.nullifier ≠ []
  fits : call.phase.Fits s call.request

theorem Advances.own (h : Advances P clock s call s' call') (hs : s.Separate)
    (hown : Own P s call) : s'.Separate ∧ Own P s' call' := by
  obtain ⟨hnormal, hne, hfits⟩ := hown
  cases h with
  | @opens request phase hphase =>
    have hopen := openEntry_opened hs request.bucket
    refine ⟨openEntry_separate hs _, hnormal, hne, ?_⟩
    rcases hphase with rfl | rfl
    · exact hopen
    · exact check_fits hopen hnormal hne
  | checks => exact ⟨hs, hnormal, hne, check_fits hfits hnormal hne⟩
  | verifies hvalid =>
    exact ⟨hs, hnormal, hne, hfits.1, fun hv => hfits.2 (hvalid hv).1 (hvalid hv).2⟩
  | refuses hvalid =>
    refine ⟨hs, hnormal, hne, fun hv => ?_⟩
    rw [hvalid] at hv
    cases hv
  | @accepts request object _ _ hvalid =>
    refine ⟨commit_separate hs hfits.1, hnormal, hne, fun _ => ⟨object, ?_, ?_⟩⟩
    · rw [commit_buckets, if_pos rfl]
    · rw [commit_entry hfits.1.lt]
      exact mem_addNew.2 (Or.inr rfl)

theorem Advances.frame {other : Call} (h : Advances P clock s call s' call')
    (hown : Own P s call) (hother : Own P s other) (hapart : Apart call other) :
    Own P s' other := by
  refine ⟨hother.normal, hother.ne_nil, ?_⟩
  cases h with
  | @opens request phase hphase =>
    refine hother.fits.frame (openEntry_keeps s _) fun o _ hopen => ⟨?_, openEntry_entry ..⟩
    refine hopen.frame (openEntry_length s _) (openEntry_entry ..) ?_ fun b hb => ?_
    · rw [openEntry_buckets]
    · rw [openEntry_buckets] at hb
      exact hopen.only b hb
  | checks | verifies | refuses => exact hother.fits
  | @accepts request object _ _ hvalid =>
    refine hother.fits.frame (commit_keeps hown.fits.1) fun o ho hopen => ?_
    obtain ⟨hne, hbuckets⟩ := hapart.buckets object o rfl ho
    have hentry := commit_entry_of_ne request s hne
    refine ⟨hopen.frame (commit_keeps hown.fits.1).length hentry ?_ fun b hb => ?_, hentry⟩
    · rw [commit_buckets, if_neg hbuckets]
    · rw [commit_buckets] at hb
      split_ifs at hb
      · cases hb
        exact absurd rfl hne
      · exact hopen.only b hb

theorem Advances.apart {other : Call} (h : Advances P clock s call s' call')
    (hown : Own P s call) (hother : Own P s other) (hapart : Apart call other)
    (hmeet : (oneByOne P).meet call' other) : Apart call' other := by
  obtain ⟨hbuckets, hnullifier⟩ := hmeet
  have hrunning : ∀ object object', call'.phase.object? = some object →
      other.phase.object? = some object' → call'.request.bucket ≠ other.request.bucket :=
    fun o o' ho ho' => hbuckets (running_iff.2 ⟨o, ho⟩) (running_iff.2 ⟨o', ho'⟩)
  have hopened : ∀ object', other.phase.object? = some object' →
      Opened s other.request.bucket object' := by
    intro object' ho'
    have hfits := hother.fits
    cases hphase : other.phase <;> rw [hphase] at hfits ho' <;> cases ho'
    exacts [hfits, hfits.1, hfits.1]
  cases h with
  | @opens request phase hphase =>
    have hobject : phase.object? = some (openEntry s request.bucket).1 := by
      rcases hphase with rfl | rfl
      · rfl
      · exact check_object ..
    refine ⟨fun o o' ho ho' => ⟨?_, hrunning o o' ho ho'⟩, fun _ hboth => ?_⟩
    · rw [hobject] at ho
      cases ho
      exact openEntry_ne (hopened o' ho') (hrunning _ o' hobject ho')
    · rcases hphase with rfl | rfl
      · cases hboth.1
      · rw [check_accepted] at hboth
        cases hboth.1
  | @checks request object =>
    refine ⟨fun o o' ho ho' => ⟨?_, hrunning o o' ho ho'⟩, fun _ hboth => ?_⟩
    · rw [check_object] at ho
      cases ho
      exact (hapart.buckets object o' rfl ho').1
    · rw [check_accepted] at hboth
      cases hboth.1
  | @verifies request object =>
    refine ⟨fun o o' ho ho' => ⟨?_, hrunning o o' ho ho'⟩, fun _ hboth => by cases hboth.1⟩
    cases ho
    exact (hapart.buckets object o' rfl ho').1
  | refuses hvalid =>
    refine ⟨fun _ _ ho => (nomatch ho), fun _ hboth => ?_⟩
    cases hvalid.symm.trans hboth.1
  | @accepts request object _ _ hvalid =>
    refine ⟨fun _ _ ho => (nomatch ho), fun heq hboth => ?_⟩
    -- the other call has left the request in the entry that this one holds
    have hroom := hown.fits.2 hvalid
    have hfits := hother.fits
    obtain ⟨-, haccepted⟩ := hboth
    unfold Call.accepted at haccepted
    cases hphase : other.phase <;> rw [hphase] at hfits haccepted <;> try cases haccepted
    obtain ⟨object', hstored, hmem⟩ := hfits haccepted
    rw [← hnullifier heq] at hstored
    rcases hown.fits.1.stored with hb | ⟨hb, -⟩
    · rw [show s.buckets.get? request.bucket = some object from hb] at hstored
      cases hstored
      exact hroom.new (heq ▸ hmem)
    · rw [show s.buckets.get? request.bucket = none from hb] at hstored
      cases hstored

def rule (P : Platform) : Tasks.Rule (registration P) (oneByOne P) where
  inv := Ledger.Separate
  own := Own P
  apart := Apart
  symm h := ⟨fun o o' ho ho' => ⟨(h.buckets o' o ho' ho).1.symm, (h.buckets o' o ho' ho).2.symm⟩,
    fun heq hboth => h.once heq.symm ⟨hboth.2, hboth.1⟩⟩
  start _ haccepts := ⟨haccepts.1, haccepts.2, trivial⟩
  start_apart _ _ _ _ := ⟨fun _ _ ho => (nomatch ho), fun _ hboth => nomatch hboth.1⟩
  advance hs hown h _ := (advance_advances h).own hs hown
  frame _ hown hother hapart h _ hmeet :=
    ⟨(advance_advances h).frame hown hother hapart,
      (advance_advances h).apart hown hother hapart hmeet⟩

/-! ## Counting -/

/-- How many requests of a bucket are accepted. -/
def taken (world : Tasks.World Ledger Call) (bucket : JsString) : ℕ :=
  world.tasks.countP fun call => call.accepted ∧ call.request.bucket = bucket

/-- A call that is accepted had room, and is counted. -/
theorem Advances.usage (h : Advances P clock s call s' call') (hown : Own P s call) :
    call.accepted = false
      ∧ ((call'.accepted = false ∧ ∀ b, s'.usage b = s.usage b)
        ∨ (call'.accepted = true ∧ s.usage call.request.bucket < call.request.quota
          ∧ ∀ b, s'.usage b = s.usage b + if call.request.bucket = b then 1 else 0)) := by
  have hfits := hown.fits
  cases h with
  | @opens request phase hphase =>
    refine ⟨rfl, Or.inl ⟨?_, openEntry_usage s _⟩⟩
    rcases hphase with rfl | rfl
    · rfl
    · exact check_accepted ..
  | checks => exact ⟨rfl, Or.inl ⟨check_accepted .., fun _ => rfl⟩⟩
  | verifies => exact ⟨rfl, Or.inl ⟨rfl, fun _ => rfl⟩⟩
  | refuses hvalid => exact ⟨rfl, Or.inl ⟨hvalid, fun _ => rfl⟩⟩
  | accepts hvalid =>
    refine ⟨rfl, Or.inr ⟨hvalid, ?_, commit_usage hfits.1⟩⟩
    rw [hfits.1.usage]
    exact (hfits.2 hvalid).lt

/-- A step accepts nothing in a bucket and leaves what is used, or it accepts one request that has
room. -/
theorem step_taken (hholds : (rule P).Holds world)
    (hstep : Tasks.Step (registration P) (oneByOne P) world world') (bucket : JsString) :
    (world'.store.usage bucket = world.store.usage bucket
      ∧ taken world' bucket = taken world bucket)
    ∨ (world'.store.usage bucket = world.store.usage bucket + 1
      ∧ taken world' bucket = taken world bucket + 1
      ∧ ∃ call ∈ world'.tasks, call.request.bucket = bucket
        ∧ world.store.usage bucket < call.request.quota) := by
  cases hstep with
  | start => exact Or.inl ⟨rfl, by simp [taken, registration, Call.accepted]⟩
  | @advance i call call' s' clock htask hnext =>
    obtain ⟨hi, rfl⟩ := List.getElem?_eq_some_iff.1 htask
    have hadvances := advance_advances hnext
    obtain ⟨hbefore, hafter⟩ := hadvances.usage (hholds.own _ (List.getElem_mem hi))
    have hset : taken ⟨s', world.tasks.set i call'⟩ bucket = taken world bucket
        + if call'.accepted ∧ call'.request.bucket = bucket then 1 else 0 := by
      simp [taken, List.countP_set hi, hbefore]
    rw [hadvances.request_eq] at hset
    rcases hafter with ⟨haccepted, husage⟩ | ⟨haccepted, hlt, husage⟩
    · exact Or.inl ⟨husage bucket, by simpa [haccepted] using hset⟩
    · by_cases hb : world.tasks[i].request.bucket = bucket
      · refine Or.inr ⟨by simpa [hb] using husage bucket, by simpa [haccepted, hb] using hset,
          call', List.mem_set (by simpa using hi) _, ?_, ?_⟩
        · rwa [hadvances.request_eq]
        · rwa [hadvances.request_eq, ← hb]
      · exact Or.inl ⟨by simpa [hb] using husage bucket, by simpa [haccepted, hb] using hset⟩

theorem usage_eq {first : Ledger} (hfirst : first.Separate)
    (hrun : Tasks.Run (registration P) (oneByOne P) first world) (bucket : JsString) :
    world.store.usage bucket = first.usage bucket + taken world bucket := by
  induction hrun with
  | refl => simp [Tasks.World.init, taken]
  | tail hrun hstep ih =>
    rcases step_taken ((rule P).holds hfirst hrun) hstep bucket with ⟨hu, ht⟩ | ⟨hu, ht, -⟩ <;>
      rw [hu, ht, ih]
    push_cast
    ring

/-- The requests of a step stay in the run. -/
theorem step_requests (hstep : Tasks.Step (registration P) (oneByOne P) world world') :
    ∀ call ∈ world.tasks, ∃ call' ∈ world'.tasks, call'.request = call.request := by
  intro call hcall
  cases hstep with
  | start => exact ⟨call, List.mem_append_left _ hcall, rfl⟩
  | @advance i task task' s' clock htask hnext =>
    obtain ⟨j, hj, rfl⟩ := List.getElem_of_mem hcall
    by_cases hij : i = j
    · subst hij
      rw [List.getElem?_eq_getElem hj] at htask
      cases htask
      exact ⟨task', List.mem_set hj _, (advance_advances hnext).request_eq⟩
    · refine ⟨_, List.getElem_mem (by simpa using hj), ?_⟩
      rw [List.getElem_set_ne hij]

theorem taken_le {first : Ledger} (hfirst : first.Separate)
    (hpositive : 0 ≤ first.usage bucket) {maxRequests : ℤ}
    (hrun : Tasks.Run (registration P) (oneByOne P) first world) :
    (∀ call ∈ world.tasks, call.request.bucket = bucket → call.request.quota ≤ maxRequests) →
    (taken world bucket : ℤ) ≤ max 0 maxRequests := by
  induction hrun with
  | refl => simp [Tasks.World.init, taken]
  | @tail before after hrun hstep ih =>
    intro hquota
    have hbefore : (taken before bucket : ℤ) ≤ max 0 maxRequests := ih fun call hcall hb => by
      obtain ⟨call', hmem, heq⟩ := step_requests hstep call hcall
      exact heq ▸ hquota call' hmem (heq ▸ hb)
    rcases step_taken ((rule P).holds hfirst hrun) hstep bucket with ⟨-, ht⟩ | ⟨-, ht, hcall⟩
    · rwa [ht]
    · obtain ⟨call, hmem, hb, hlt⟩ := hcall
      have hq := hquota call hmem hb
      rw [usage_eq hfirst hrun] at hlt
      rw [ht]
      have hmax := le_max_right 0 maxRequests
      push_cast
      omega

theorem accepted_once (hholds : (rule P).Holds world) (nullifier : JsString) :
    (world.tasks.countP fun call => call.accepted ∧ call.request.nullifier = nullifier) ≤ 1 := by
  have countP_le_one : ∀ {calls : List Call}, calls.Pairwise Apart →
      calls.countP (fun call => call.accepted ∧ call.request.nullifier = nullifier) ≤ 1 := by
    intro calls hcalls
    induction hcalls with
    | nil => simp
    | @cons call calls hall _ ih =>
      by_cases hcall : call.accepted ∧ call.request.nullifier = nullifier
      · rw [List.countP_cons_of_pos (by simpa using hcall), List.countP_eq_zero.2]
        intro other hother
        have honce := (hall other hother).once
        simp only [decide_eq_true_eq, not_and]
        exact fun haccepted hn => honce (hcall.2.trans hn.symm) ⟨hcall.1, haccepted⟩
      · rwa [List.countP_cons_of_neg (by simpa using hcall)]
  exact countP_le_one hholds.apart

/-- What the verification finds where the bucket has no entry. -/
def firstFound (P : Platform) (clock : ℤ) (request : Request) : Found :=
  find P request.envelope request.options [] (Ledger.of .empty) clock

def firstVerification (P : Platform) (clock : ℤ) (request : Request) : Verification :=
  conclude request.envelope (firstFound P clock request) (some true)

/-- A request that is signed, asks for no challenge, and is accepted where its bucket has no
entry. -/
structure Acceptable (P : Platform) (clock : ℤ) (request : Request) : Prop where
  challenge : request.options.expectedChallenge.bind nonEmpty = none
  secret : request.options.issuerSecret.bind nonEmpty ≠ none
  signed : P.verifyHmacSha256 (request.options.issuerSecret.getD [])
    (signingPayload request.envelope.claim) request.envelope.signature.value = some true
  valid : (firstVerification P clock request).valid = true

/-- Some new entries, which no bucket has. -/
def newEntries (n : ℕ) : Ledger := ⟨List.replicate n ⟨0, []⟩, .empty⟩

theorem find_congr (registered : List JsString)
    (h : s.usage request.bucket = s'.usage request.bucket) :
    find P request.envelope request.options registered s clock
      = find P request.envelope request.options registered s' clock := by
  have hused : observedUsageFor request.bucket s = observedUsageFor request.bucket s' := by
    rw [observedUsageFor, observedUsageFor, h]
  unfold Request.bucket at hused
  simp only [find]
  generalize observedUsageFor _ s = used at *
  rw [hused]

namespace Acceptable

variable (h : Acceptable P clock request)

include h

theorem opens (n : ℕ) : advance P clock (newEntries n) ⟨request, .waiting⟩
    = some (newEntries (n + 1), ⟨request, .verifying n (firstFound P clock request)⟩) := by
  obtain ⟨secret, hsecret⟩ := Option.ne_none_iff_exists'.1 h.secret
  have hopen : openEntry (newEntries n) request.bucket = (n, newEntries (n + 1)) := by
    simp [openEntry, newEntries, List.replicate_succ']
  have hentry : (newEntries (n + 1)).entry n = ⟨0, []⟩ := by
    simp [newEntries, Ledger.entry]
  have hcheck : check P request n (newEntries (n + 1)) clock
      = .verifying n (firstFound P clock request) := by
    simp only [check, hsecret, hentry, firstFound]
    exact congrArg (Phase.verifying n) (find_congr [] rfl)
  simp only [advance, hopen, h.challenge, hcheck]

theorem verifies (s : Ledger) (object : ℕ) :
    advance P clock s ⟨request, .verifying object (firstFound P clock request)⟩
      = some (s, ⟨request, .verified object (firstVerification P clock request)⟩) := by
  simp only [advance, h.signed, firstVerification]

theorem accepts (s : Ledger) (object : ℕ) :
    advance P clock s ⟨request, .verified object (firstVerification P clock request)⟩
      = some (commit request object s, ⟨request, .returned (firstVerification P clock request)
          ((commit request object s).entry object).count⟩) := by
  simp only [advance, h.valid, if_true]

/-- One call. -/
theorem once (hnormal : normalizeText P request.nullifier = request.nullifier)
    (hne : request.nullifier ≠ []) :
    ∃ world, Tasks.Run (registration P) (oneByOne P) (Ledger.of .empty) world
      ∧ world.tasks.map Call.accepted = [true] := by
  have meet : ∀ {call call' : Call} (j : ℕ) (u : Call), [call][j]? = some u → j ≠ 0 →
      (oneByOne P).meet call' u := by
    intro call call' j u hu hj
    rw [List.getElem?_eq_none (by rw [List.length_singleton]; omega)] at hu
    cases hu
  have h₁ := (Tasks.Run.init (registration P) (oneByOne P) (Ledger.of .empty)).tail
    (.start (r := request) ⟨hnormal, hne⟩ (by simp [Tasks.World.init]))
  have h₂ := h₁.tail (.advance (i := 0) clock rfl (h.opens 0) trivial meet)
  have h₃ := h₂.tail (.advance (i := 0) clock rfl (h.verifies _ 0) trivial meet)
  have h₄ := h₃.tail (.advance (i := 0) clock rfl (h.accepts _ 0) trivial meet)
  exact ⟨_, h₄, congrArg ([·]) h.valid⟩

/-- Two calls that both read the ledger before either writes: each has a new entry, so the request
is accepted twice, and its bucket counts one. -/
theorem twice : ∃ world, Tasks.Run (registration P) .free (Ledger.of .empty) world
    ∧ world.tasks.map (fun call => (call.accepted, call.request))
      = [(true, request), (true, request)]
    ∧ world.store.usage request.bucket = 1 := by
  have h₁ := ((Tasks.Run.init (registration P) .free (Ledger.of .empty)).tail
    (.start (r := request) trivial fun _ _ => trivial)).tail
    (.start (r := request) trivial fun _ _ => trivial)
  have h₂ := h₁.tail (.advance (i := 0) clock rfl (h.opens 0) trivial fun _ _ _ _ => trivial)
  have h₃ := h₂.tail (.advance (i := 1) clock rfl (h.opens 1) trivial fun _ _ _ _ => trivial)
  have h₄ := h₃.tail (.advance (i := 0) clock rfl (h.verifies _ 0) trivial fun _ _ _ _ => trivial)
  have h₅ := h₄.tail (.advance (i := 1) clock rfl (h.verifies _ 1) trivial fun _ _ _ _ => trivial)
  have h₆ := h₅.tail (.advance (i := 0) clock rfl (h.accepts _ 0) trivial fun _ _ _ _ => trivial)
  have h₇ := h₆.tail (.advance (i := 1) clock rfl (h.accepts _ 1) trivial fun _ _ _ _ => trivial)
  refine ⟨_, h₇, ?_, ?_⟩
  · exact congrArg (fun valid => [(valid, request), (valid, request)]) h.valid
  · simp [Ledger.usage, Ledger.get?, commit, Ledger.entry, newEntries]

end Acceptable

/-- A proof for one request between 15:06:40 and 15:16:40, without its private fields. -/
def queryProof : AnonymousRateLimitProofEnvelope where
  claim := {
    version := ANONYMOUS_RATE_LIMIT_PROOF_VERSION
    scope := js "ADDRESS-SEARCH"
    action := js "QUERY"
    audience := none
    challengeHash := js "WqMLOixpluhh9Md7-8hHMJhs8JD4NHKUjobMCkmkEaw"
    issuedAt := js "2025-06-15T15:06:40.000Z"
    expiresAt := js "2025-06-15T15:16:40.000Z"
    window := {
      bucketId := js "2025-06-15T15:06:40.000Z/2025-06-15T15:16:40.000Z"
      startsAt := js "2025-06-15T15:06:40.000Z"
      endsAt := js "2025-06-15T15:16:40.000Z"
      maxRequests := 1 }
    nullifiers := {
      algorithm := ANONYMOUS_RATE_LIMIT_NULLIFIER_ALGORITHM
      bucketNullifier := js "20HzUoU6udE6yGW8ILl_zNiE60E0Cfa8TbLFp40D5b0"
      requestNullifier := js "Wyq37HdCp-6cd5ttct8PJcIgzButxIZwh2G6q0cy-oE" }
    commitments := {
      subjectSecretCommitment := js "Ep_xiF4Bu-vzaOEDxyqxY5up2AMb27tWykmgxZKQRpo"
      requestNonceCommitment := js "BXUilDoSFc5BZbKqbx4TXO8lGqup4JbyOxHg6RwCoc0" }
    privacy := {
      hides := hiddenFields
      reveals := ["scope", "action", "window", "quota", "bucket-nullifier", "request-nullifier",
        "challenge-hash", "commitments", "issuer"].map js }
    proofHint := {
      zkReady := true
      zkpGenerated := false
      statement := js "holder-knows-rate-limit-secret-for-window-scoped-nullifier" } }
  signature := {
    algorithm := ANONYMOUS_RATE_LIMIT_SIGNATURE_ALGORITHM
    issuerId := js "issuer"
    value := js "9Domr6lW6Cj9SKUmB9NjLQwiFrEJWk9Js6yVjGO8ELk" }
  privateProofSalt := none
  localCacheKey := none

/-- The proof comes at 15:14. -/
def queryRequest : Request where
  envelope := queryProof
  options := {
    issuerId := none
    issuerSecret := some (js "issuer-secret")
    expectedScope := none
    expectedAction := none
    expectedAudience := none
    expectedChallenge := none
    now := some (.date (some 1750000440000))
    maxRequestsPerWindow := none
    minWindowSeconds := none
    maxWindowSeconds := none }

/-- A platform that knows the times and the signature of the proof. -/
def queryPlatform : Platform where
  nfkc := ⟨id, id_ascii⟩
  toUpperCase s := s.map fun c => if 97 ≤ c.val ∧ c.val ≤ 122 then c - 32 else c
  dates := .ofTable ⟨[(1750000000000, js "2025-06-15T15:06:40.000Z"),
    (1750000600000, js "2025-06-15T15:16:40.000Z")], by decide⟩ (by decide) (by decide)
  sha256Base64Url _ := []
  verifyHmacSha256 secret payload value :=
    some (secret = js "issuer-secret" && payload = signingPayload queryProof.claim
      && value = queryProof.signature.value)

theorem queryProof_private_keys :
    privateKeys.all (fun key => !includes (publicText queryProof) key) = true := by
  simp only [publicText, queryProof, AnonymousRateLimitClaim.json, strings, privateKeys,
    hiddenFields, ANONYMOUS_RATE_LIMIT_PROOF_VERSION, ANONYMOUS_RATE_LIMIT_NULLIFIER_ALGORITHM,
    ANONYMOUS_RATE_LIMIT_SIGNATURE_ALGORITHM, js_eq_asciiUnits]
  decide +kernel

theorem queryProof_identity_keys :
    ((publicText queryProof).tails.any fun s => identityKeys.any fun key => startsWithKey key s)
      = false := by
  simp only [publicText, queryProof, AnonymousRateLimitClaim.json, strings, identityKeys,
    hiddenFields, ANONYMOUS_RATE_LIMIT_PROOF_VERSION, ANONYMOUS_RATE_LIMIT_NULLIFIER_ALGORITHM,
    ANONYMOUS_RATE_LIMIT_SIGNATURE_ALGORITHM, js_eq_asciiUnits]
  decide +kernel

theorem queryProof_preserved : privacyPreserved queryProof = true := by
  have hhidden : hiddenFields.all (queryProof.claim.privacy.hides.contains ·) = true := by
    decide +kernel
  simp only [privacyPreserved, queryProof_private_keys, queryProof_identity_keys, hhidden]
  rfl

theorem queryRequest_acceptable : Acceptable queryPlatform 0 queryRequest where
  challenge := rfl
  secret := by decide
  signed := by
    simp [queryPlatform, queryRequest]
  valid := by
    simp only [firstVerification, conclude, queryRequest, queryProof_preserved]
    decide +kernel

end Agid.RateLimit
