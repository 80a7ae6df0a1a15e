import Agid.Proofs.Authorization

/-!
# Families stem from codes

A code is consumed by one exchange, which alone can go on to create a family, and does so only when
the code is its own.
-/

namespace Agid.VeygritId

variable {S : Service} {past : Past} {w w' : World} {e : Event} {env : Env} {s : Store} {i : ℕ}
  {task task' : Task} {write : Write} {h : JsString}

theorem consumers_cons (h : JsString) (past : Past) (w : World) (e : Event) :
    consumers S h ((w, e) :: past)
      = (((consumes S w e).filter (·.2 = h)).map (·.1)).toList ++ consumers S h past := by
  rw [consumers, List.filterMap_cons]
  cases ((consumes S w e).filter (·.2 = h)).map (·.1) <;> rfl

theorem creations_cons (past : Past) (w : World) (e : Event) :
    creations S ((w, e) :: past) = (created S w e).toList ++ creations S past := by
  rw [creations, List.filterMap_cons]
  cases created S w e <;> rfl

theorem codes_apply (s : Store) (write : Write) :
    (s.apply write).codes = match write with
      | .saveAuthorizationCode code => s.codes.set code.codeHash code
      | .consumeAuthorizationCode codeHash consumedAt =>
        match s.openCode codeHash with
        | some code => s.codes.set codeHash (code.consume consumedAt)
        | none => s.codes
      | _ => s.codes := by
  cases write with
  | consumeAuthorizationCode codeHash consumedAt =>
    simp only [Store.apply]
    cases s.openCode codeHash <;> rfl
  | _ => simp only [Store.apply] <;> split <;> rfl

theorem families_apply (s : Store) (write : Write) (familyRef : JsString) :
    ((s.apply write).families.get? familyRef).isSome
      ↔ (∃ family, write = .saveTokenFamily family ∧ family.familyRef = familyRef)
        ∨ (s.families.get? familyRef).isSome := by
  cases write with
  | saveTokenFamily family =>
    simp only [Store.apply, Record.get?_set]
    split_ifs with hf <;> simp [hf]
  | revokeFamily ref status =>
    simp only [Store.apply]
    split
    · rename_i family hfamily
      rw [Record.get?_set]
      split_ifs with hf
      · subst hf
        simp [hfamily]
      · simp
    · simp
  | consumeAuthorizationCode => simp only [Store.apply]; split <;> simp
  | consumeRefreshToken => simp only [Store.apply]; split <;> simp
  | _ => simp [Store.apply]

/-- The exchange has created its family. -/
def Exchanged : Progress (ForClient ExchangePhase) → Prop
  | .running (.within (.familySaved ..)) => True
  | .running (.within (.accessSaved ..)) => True
  | .returning (.ok _) => True
  | .answered (.ok _) => True
  | _ => False

structure Codes (S : Service) (past : Past) (w : World) : Prop where
  keyed : ∀ h code, w.store.codes.get? h = some code → code.codeHash = h
    ∧ { code with consumedAt := none } ∈ issuedCodes S past
  /-- A code is consumed once, and is there but not open then. -/
  consumed : ∀ h, consumers S h past = [] ∨ (∃ i, consumers S h past = [i])
    ∧ w.store.openCode h = none ∧ (w.store.codes.get? h).isSome
  read : ∀ (i : ℕ) input record, w.tasks[i]? = some
      (.exchangeAuthorizationCode input (.running (.within (.consumed (some record))))) →
    consumers S record.codeHash past = [i] ∧ record.codeHash = S.sha256 input.code
      ∧ { record with consumedAt := none } ∈ issuedCodes S past
  created : ∀ c ∈ creations S past, Redeems S past c ∧ ∃ input p,
    w.tasks[c.task]? = some (.exchangeAuthorizationCode input p) ∧ Exchanged p
  families : ∀ familyRef, (w.store.families.get? familyRef).isSome ↔
    ∃ c ∈ creations S past, c.family.familyRef = familyRef
  one : ((creations S past).map (·.family.familyRef)).Nodup
  distinct : ((creations S past).map (·.record.codeHash)).Nodup

/-! ## Steps -/

/-- The calls after a step that creates no family and consumes no code. -/
structure Onward (tasks tasks' : List Task) : Prop where
  exchanged : ∀ (i : ℕ) input p, tasks[i]? = some (.exchangeAuthorizationCode input p) →
    Exchanged p → ∃ p', tasks'[i]? = some (.exchangeAuthorizationCode input p') ∧ Exchanged p'
  read : ∀ (i : ℕ) input record, tasks'[i]? = some
      (.exchangeAuthorizationCode input (.running (.within (.consumed (some record))))) →
    tasks[i]? = some
      (.exchangeAuthorizationCode input (.running (.within (.consumed (some record)))))

theorem Onward.call (tasks : List Task) (call : Call) : Onward tasks (tasks ++ [call.task]) where
  exchanged i input p hi hp := by
    refine ⟨p, ?_, hp⟩
    rw [List.getElem?_append_left (List.getElem?_eq_some_iff.1 hi).1, hi]
  read i input record hi := by
    rcases lt_or_ge i tasks.length with hlt | hge
    · rwa [List.getElem?_append_left hlt] at hi
    · rw [List.getElem?_append_right hge] at hi
      have := List.mem_singleton.1 (List.mem_of_getElem? hi)
      cases call <;> cases this

theorem Onward.set {tasks : List Task} (hi : tasks[i]? = some task)
    (exchanged : ∀ input p, task = .exchangeAuthorizationCode input p → Exchanged p →
      ∃ p', task' = .exchangeAuthorizationCode input p' ∧ Exchanged p')
    (read : ∀ input record,
      task' ≠ .exchangeAuthorizationCode input (.running (.within (.consumed (some record))))) :
    Onward tasks (tasks.set i task') where
  exchanged j input p hj hp := by
    by_cases hij : i = j
    · subst hij
      rw [hi] at hj
      cases hj
      obtain ⟨p', rfl, hp'⟩ := exchanged input p rfl hp
      exact ⟨p', by rw [List.getElem?_set_self (List.getElem?_eq_some_iff.1 hi).1], hp'⟩
    · exact ⟨p, by rw [List.getElem?_set_ne hij, hj], hp⟩
  read j input record hj := by
    by_cases hij : i = j
    · subst hij
      rw [List.getElem?_set_self (List.getElem?_eq_some_iff.1 hi).1] at hj
      exact absurd (Option.some.inj hj) (read input record)
    · rwa [List.getElem?_set_ne hij] at hj

theorem Task.Same.exchange {input : ExchangeInput} {p : Progress (ForClient ExchangePhase)}
    (h : task.Same (.exchangeAuthorizationCode input p)) :
    ∃ p, task = .exchangeAuthorizationCode input p := by
  cases task with
  | exchangeAuthorizationCode input' p' =>
    cases h
    exact ⟨p', rfl⟩
  | _ => cases h

/-- A step of an exchange. -/
theorem exchange_cases {input : ExchangeInput} {p : Progress (ForClient ExchangePhase)}
    (h : (Task.exchangeAuthorizationCode input p).advance S env s = some (write, task')) :
    ∃ p', task' = .exchangeAuthorizationCode input p'
      ∧ ((∃ phase, p = .running phase ∧ Exchanges S env s input phase write p')
        ∨ ∃ result, p = .returning result ∧ write = .nothing ∧ p' = .answered result) := by
  obtain ⟨⟨write, p'⟩, hp, heq⟩ := Option.map_eq_some_iff.1 h
  cases heq
  refine ⟨p', rfl, ?_⟩
  rcases Progress.advance_cases hp with ⟨phase, rfl, hstep⟩ | hreturn
  · exact .inl ⟨phase, rfl, exchanges hstep⟩
  · exact .inr hreturn

theorem Onward.work {tasks : List Task} (hi : tasks[i]? = some task)
    (h : task.advance S env s = some (write, task'))
    (unconsumed : ∀ codeHash consumedAt, write ≠ .consumeAuthorizationCode codeHash consumedAt)
    (uncreated : ∀ family, write ≠ .saveTokenFamily family) : Onward tasks (tasks.set i task') := by
  by_cases hexchange : ∃ input p, task = .exchangeAuthorizationCode input p
  · obtain ⟨input, p, rfl⟩ := hexchange
    obtain ⟨p', rfl, hp⟩ := exchange_cases h
    refine .set hi (fun _ _ heq hdone => ?_) fun _ record heq => ?_
    · cases heq
      refine ⟨p', rfl, ?_⟩
      rcases hp with ⟨phase, rfl, hstep⟩ | ⟨result, rfl, -, rfl⟩
      · cases hstep with
        | refused _ early =>
          cases phase with
          | within phase =>
            cases phase with
            | consumed => cases hdone
            | familySaved record issue => exact absurd rfl (early record issue).1
            | accessSaved record issue => exact absurd rfl (early record issue).2
          | _ => cases hdone
        | access => trivial
        | refresh => trivial
        | _ => cases hdone
      · cases result with
        | ok => trivial
        | error => cases hdone
    · cases heq
      rcases hp with ⟨phase, rfl, hstep⟩ | ⟨result, -, -, hp⟩
      · generalize hp' : Progress.running (ForClient.within (ExchangePhase.consumed (some record)))
          = p' at hstep
        cases hstep with
        | consumed => exact unconsumed _ _ rfl
        | _ => cases hp'
      · cases hp
  · refine .set hi (fun input p heq => absurd ⟨input, p, heq⟩ hexchange) fun input record heq => ?_
    subst heq
    obtain ⟨p, rfl⟩ := (advance_allows h).1.exchange
    exact hexchange ⟨input, p, rfl⟩

theorem consumes_eq_none (hw : written S w e = write)
    (unconsumed : ∀ codeHash consumedAt, write ≠ .consumeAuthorizationCode codeHash consumedAt) :
    consumes S w e = none := by
  cases e with
  | call => rfl
  | work i env =>
    simp only [consumes, hw]

theorem created_eq_none (hw : written S w e = write)
    (uncreated : ∀ family, write ≠ .saveTokenFamily family) : created S w e = none := by
  cases e with
  | call => rfl
  | work i env =>
    simp only [created, hw]
    split
    · exact absurd rfl (uncreated _)
    · rfl

theorem Redeems.later {c : Creation} (h : Redeems S past c)
    (hconsumed : consumers S c.record.codeHash ((w, e) :: past)
      = consumers S c.record.codeHash past) : Redeems S ((w, e) :: past) c :=
  { h with
    issued := by
      rw [issuedCodes_cons]
      exact List.mem_append_right _ h.issued
    consumed := by rw [hconsumed, h.consumed] }

theorem consumers_of_none (h : consumes S w e = none) (codeHash : JsString) :
    consumers S codeHash ((w, e) :: past) = consumers S codeHash past := by
  rw [consumers_cons, h]
  rfl

/-- A step that consumes no code and creates no family; it may issue a code. -/
theorem Codes.frame (h : Codes S past w) (honward : Onward w.tasks w'.tasks)
    (hconsumes : consumes S w e = none) (hcreated : VeygritId.created S w e = none)
    (hfamilies : ∀ familyRef, (w'.store.families.get? familyRef).isSome
      ↔ (w.store.families.get? familyRef).isSome)
    (hcodes : ∀ h code, w'.store.codes.get? h = some code → w.store.codes.get? h = some code
      ∨ code.codeHash = h ∧ { code with consumedAt := none } ∈ issuedCodes S ((w, e) :: past))
    (hkept : ∀ h code, w.store.codes.get? h = some code → w'.store.codes.get? h = some code) :
    Codes S ((w, e) :: past) w' := by
  have hlater : ∀ code, code ∈ issuedCodes S past → code ∈ issuedCodes S ((w, e) :: past) :=
    fun code hcode => by
      rw [issuedCodes_cons]
      exact List.mem_append_right _ hcode
  have hsame : creations S ((w, e) :: past) = creations S past := by
    rw [creations_cons, hcreated]
    rfl
  refine ⟨fun h' code hcode => ?_, fun h' => ?_, fun i input record hi => ?_, fun c hc => ?_,
    fun familyRef => ?_, ?_, ?_⟩
  · rcases hcodes h' code hcode with hold | hnew
    · obtain ⟨hkey, hissued⟩ := h.keyed h' code hold
      exact ⟨hkey, hlater _ hissued⟩
    · exact hnew
  · rw [consumers_of_none hconsumes]
    rcases h.consumed h' with hnone | ⟨hone, hclosed, hsome⟩
    · exact .inl hnone
    · obtain ⟨code, hcode⟩ := Option.isSome_iff_exists.1 hsome
      refine .inr ⟨hone, ?_, by rw [hkept h' code hcode]; rfl⟩
      rw [Store.openCode, hcode] at hclosed
      rw [Store.openCode, hkept h' code hcode]
      exact hclosed
  · obtain ⟨hread, hcode, hissued⟩ := h.read i input record (honward.read i input record hi)
    rw [consumers_of_none hconsumes]
    exact ⟨hread, hcode, hlater _ hissued⟩
  · rw [hsame] at hc
    obtain ⟨hredeems, input, p, hi, hp⟩ := h.created c hc
    obtain ⟨p', hi', hp'⟩ := honward.exchanged _ input p hi hp
    exact ⟨hredeems.later (consumers_of_none hconsumes _), input, p', hi', hp'⟩
  · rw [hsame, hfamilies, h.families]
  · rw [hsame]
    exact h.one
  · rw [hsame]
    exact h.distinct

theorem openCode_eq_some {code : AuthorizationCodeRecord} (hopen : s.openCode h = some code) :
    s.codes.get? h = some code ∧ code.consumedAt = none := by
  obtain ⟨hcode, hp⟩ := Option.filter_eq_some_iff.1 hopen
  exact ⟨hcode, of_decide_eq_true hp⟩

/-- An exchange finds an open code and consumes it, or finds none. -/
theorem Codes.consume_step (inv : Codes S past w) {input : ExchangeInput}
    {client : Option OAuthClient}
    (hi : w.tasks[i]? = some (.exchangeAuthorizationCode input (.running (.clientRead client))))
    (hw : written S w (.work i env) = .consumeAuthorizationCode (S.sha256 input.code) env.now) :
    Codes S ((w, .work i env) :: past)
      ⟨w.store.apply (.consumeAuthorizationCode (S.sha256 input.code) env.now),
        w.tasks.set i (.exchangeAuthorizationCode input (.running (.within (.consumed
          ((w.store.openCode (S.sha256 input.code)).map (·.consume env.now))))))⟩ := by
  have hlt := (List.getElem?_eq_some_iff.1 hi).1
  have hcreated : VeygritId.created S w (.work i env) = none := created_eq_none hw nofun
  have hissued : issuedCodes S ((w, .work i env) :: past) = issuedCodes S past := by
    rw [issuedCodes_cons, issued_eq_none hw nofun]
    rfl
  have hcreations : creations S ((w, .work i env) :: past) = creations S past := by
    rw [creations_cons, hcreated]
    rfl
  have hconsumes : consumes S w (.work i env)
      = if (w.store.openCode (S.sha256 input.code)).isSome then some (i, S.sha256 input.code)
        else none := by
    rw [consumes, hw]
  rcases hopen : w.store.openCode (S.sha256 input.code) with _ | code
  · -- nothing is consumed, and the exchange goes on to its failure
    have hnone : consumes S w (.work i env) = none := by rw [hconsumes, hopen]; rfl
    have hstore : w.store.apply (.consumeAuthorizationCode (S.sha256 input.code) env.now)
        = w.store := by
      simp only [Store.apply, hopen]
    rw [hstore]
    refine inv.frame (.set hi (fun _ _ heq hp => ?_) fun _ _ heq => by cases heq) hnone hcreated
      (fun _ => Iff.rfl) (fun _ _ => .inl) fun _ _ => id
    cases heq
    cases hp
  obtain ⟨hcode, hunconsumed⟩ := openCode_eq_some hopen
  obtain ⟨hkey, hwas⟩ := inv.keyed _ code hcode
  -- the code was open, so no exchange has consumed it
  have hbefore : consumers S (S.sha256 input.code) past = [] := by
    rcases inv.consumed (S.sha256 input.code) with hnone | ⟨-, hclosed, -⟩
    · exact hnone
    · rw [hopen] at hclosed
      cases hclosed
  have hconsumers : ∀ codeHash, consumers S codeHash ((w, .work i env) :: past)
      = if S.sha256 input.code = codeHash then [i] else consumers S codeHash past := by
    intro codeHash
    rw [consumers_cons, hconsumes, hopen]
    by_cases hh : S.sha256 input.code = codeHash
    · subst hh
      simp [hbefore]
    · simp [hh]
  have hstore : (w.store.apply (.consumeAuthorizationCode (S.sha256 input.code) env.now)).codes
      = w.store.codes.set (S.sha256 input.code) (code.consume env.now) := by
    simp only [codes_apply, hopen]
  refine ⟨fun h' code' hcode' => ?_, fun h' => ?_, fun j input' record hj => ?_, fun c hc => ?_,
    fun familyRef => ?_, ?_, ?_⟩
  · rw [hissued]
    rw [hstore, Record.get?_set] at hcode'
    split_ifs at hcode' with hh
    · cases hcode'
      exact ⟨hkey.trans hh, hwas⟩
    · exact inv.keyed h' code' hcode'
  · rw [hconsumers, Store.openCode, hstore, Record.get?_set]
    split_ifs with hh
    · exact .inr ⟨⟨i, rfl⟩, by simp [AuthorizationCodeRecord.consume], rfl⟩
    · exact inv.consumed h'
  · by_cases hij : i = j
    · subst hij
      rw [List.getElem?_set_self hlt] at hj
      cases hj
      rw [hconsumers, hissued]
      exact ⟨if_pos hkey.symm, hkey, hwas⟩
    · rw [List.getElem?_set_ne hij] at hj
      obtain ⟨hread, hdigest, hissue⟩ := inv.read j input' record hj
      rw [hconsumers, hissued, if_neg]
      · exact ⟨hread, hdigest, hissue⟩
      · intro heq
        rw [← heq, hbefore] at hread
        cases hread
  · rw [hcreations] at hc
    obtain ⟨hredeems, input', p, hj, hp⟩ := inv.created c hc
    refine ⟨hredeems.later ?_, input', p, ?_, hp⟩
    · rw [hconsumers, if_neg]
      intro heq
      have := hredeems.consumed
      rw [← heq, hbefore] at this
      cases this
    · rw [List.getElem?_set_ne, hj]
      rintro rfl
      rw [hi] at hj
      cases hj
      cases hp
  · rw [hcreations, families_apply, ← inv.families]
    simp
  · rw [hcreations]
    exact inv.one
  · rw [hcreations]
    exact inv.distinct

theorem checkBinding_eq_ok {input : ExchangeInput} {record : AuthorizationCodeRecord}
    (hbound : checkBinding S env input record = .ok ()) :
    record.clientId = input.clientId ∧ normalizeUrl S input.redirectUri = .ok record.redirectUri
      ∧ record.pkceChallenge = S.sha256Base64url input.codeVerifier
      ∧ env.now < record.expiresAt := by
  unfold checkBinding at hbound
  by_cases hclient : record.clientId ≠ input.clientId
  · rw [if_pos hclient] at hbound
    cases hbound
  rw [if_neg hclient] at hbound
  obtain ⟨redirectUri, hredirect, hbound⟩ := bind_eq_ok.1 hbound
  split_ifs at hbound with hwrong
  simp only [not_or, not_not, not_le] at hwrong
  obtain ⟨rfl, hchallenge, hexpires⟩ := hwrong
  exact ⟨not_not.1 hclient, hredirect, hchallenge, hexpires⟩

/-- An exchange of a code that is its own creates a family. -/
theorem Codes.create_step (inv : Codes S past w) {input : ExchangeInput}
    {record : AuthorizationCodeRecord}
    (hi : w.tasks[i]? = some
      (.exchangeAuthorizationCode input (.running (.within (.consumed (some record))))))
    (hbound : checkBinding S env input record = .ok ())
    (hw : written S w (.work i env) = .saveTokenFamily (issueTokenFamily S env record).family)
    (drawn : Drawn S past w (.work i env)) :
    Codes S ((w, .work i env) :: past)
      ⟨w.store.apply (.saveTokenFamily (issueTokenFamily S env record).family),
        w.tasks.set i (.exchangeAuthorizationCode input (.running (.within
          (.familySaved record (issueTokenFamily S env record)))))⟩ := by
  have hlt := (List.getElem?_eq_some_iff.1 hi).1
  obtain ⟨hread, hdigest, hissue⟩ := inv.read i input record hi
  obtain ⟨hclient, hredirect, hchallenge, hexpires⟩ := checkBinding_eq_ok hbound
  have hnew : w.store.families.get? (issueTokenFamily S env record).family.familyRef = none := by
    rw [Drawn, hw] at drawn
    exact drawn
  have hissued : issuedCodes S ((w, .work i env) :: past) = issuedCodes S past := by
    rw [issuedCodes_cons, issued_eq_none hw fun _ h => by cases h]
    rfl
  have hconsumers : ∀ h, consumers S h ((w, .work i env) :: past) = consumers S h past :=
    consumers_of_none (consumes_eq_none hw fun _ _ h => by cases h)
  have hcreations : creations S ((w, .work i env) :: past)
      = ⟨i, input, record, (issueTokenFamily S env record).family, env.now⟩ :: creations S past := by
    rw [creations_cons, VeygritId.created, hw, hi]
    rfl
  -- the exchange has created no family before, and no family has come from the code
  have hfirst : ∀ c ∈ creations S past, c.task ≠ i := by
    rintro c hc rfl
    obtain ⟨-, input', p, hc', hp⟩ := inv.created c hc
    rw [hi] at hc'
    cases hc'
    cases hp
  refine ⟨fun h' code hcode => ?_, fun h' => ?_, fun j input' record' hj => ?_, fun c hc => ?_,
    fun familyRef => ?_, ?_, ?_⟩
  · rw [hissued]
    exact inv.keyed h' code (by simpa only [codes_apply] using hcode)
  · rw [hconsumers, Store.openCode, codes_apply]
    exact inv.consumed h'
  · by_cases hij : i = j
    · subst hij
      rw [List.getElem?_set_self hlt] at hj
      cases hj
    · rw [List.getElem?_set_ne hij] at hj
      rw [hconsumers, hissued]
      exact inv.read j input' record' hj
  · rw [hcreations] at hc
    rcases List.mem_cons.1 hc with rfl | hc
    · refine ⟨⟨?_, hdigest, hclient, hredirect, hchallenge, hexpires, ?_, rfl⟩, input, _,
        List.getElem?_set_self hlt, trivial⟩
      · rw [hissued]
        exact hissue
      · rw [hconsumers]
        exact hread
    · obtain ⟨hredeems, input', p, hj, hp⟩ := inv.created c hc
      refine ⟨hredeems.later (hconsumers _), input', p, ?_, hp⟩
      rw [List.getElem?_set_ne (hfirst c hc).symm, hj]
  · rw [hcreations, families_apply]
    simp only [Write.saveTokenFamily.injEq, exists_eq_left', List.mem_cons, exists_eq_or_imp,
      inv.families]
  · rw [hcreations, List.map_cons, List.nodup_cons]
    refine ⟨fun hmem => ?_, inv.one⟩
    obtain ⟨c, hc, href⟩ := List.mem_map.1 hmem
    have := (inv.families _).2 ⟨c, hc, href⟩
    rw [hnew] at this
    cases this
  · rw [hcreations, List.map_cons, List.nodup_cons]
    refine ⟨fun hmem => ?_, inv.distinct⟩
    obtain ⟨c, hc, hhash⟩ := List.mem_map.1 hmem
    have hconsumed := (inv.created c hc).1.consumed
    rw [hhash, hread] at hconsumed
    exact hfirst c hc (List.singleton_inj.1 hconsumed).symm

theorem Task.Allows.exchange (h : task.Allows write)
    (hwrite : (∃ codeHash consumedAt, write = .consumeAuthorizationCode codeHash consumedAt)
      ∨ ∃ family, write = .saveTokenFamily family) :
    ∃ input p, task = .exchangeAuthorizationCode input p := by
  cases task with
  | exchangeAuthorizationCode input p => exact ⟨input, p, rfl⟩
  | _ => rcases hwrite with ⟨_, _, rfl⟩ | ⟨_, rfl⟩ <;> cases h

/-- A code is issued unconsumed. -/
theorem code_unconsumed {input : ApproveInput} {p : Progress ApprovePhase}
    {code : AuthorizationCodeRecord} (h : (Task.approveAuthorization input p).advance S env s
      = some (.saveAuthorizationCode code, task')) : code.consumedAt = none := by
  obtain ⟨⟨write, p'⟩, hp, heq⟩ := Option.map_eq_some_iff.1 h
  cases heq
  rcases Progress.advance_cases hp with ⟨phase, rfl, hstep⟩ | ⟨result, rfl, hw, -⟩
  · cases approves hstep with
    | code => rfl
    | client _ _ _ _ pairwise => rcases pairwise with h | ⟨_, h⟩ <;> cases h
  · cases hw

theorem Codes.step (inv : Codes S past w) (hnext : next S w e = some w')
    (drawn : Drawn S past w e) : Codes S ((w, e) :: past) w' := by
  rcases next_cases hnext with ⟨call, rfl, rfl⟩ | ⟨i, env, task, write, task', rfl, hi, ha, hw, rfl⟩
  · exact inv.frame (.call w.tasks call) rfl rfl (fun _ => Iff.rfl) (fun _ _ => .inl) fun _ _ => id
  by_cases hexchange : (∃ codeHash consumedAt, write = .consumeAuthorizationCode codeHash consumedAt)
      ∨ ∃ family, write = .saveTokenFamily family
  · obtain ⟨input, p, rfl⟩ := (advance_allows ha).2.exchange hexchange
    obtain ⟨p', rfl, ⟨phase, rfl, hstep⟩ | ⟨result, -, rfl, -⟩⟩ := exchange_cases ha
    · cases hstep with
      | consumed client => exact inv.consume_step hi hw
      | issued record bound => exact inv.create_step hi bound hw drawn
      | _ => rcases hexchange with ⟨_, _, h⟩ | ⟨_, h⟩ <;> cases h
    · rcases hexchange with ⟨_, _, h⟩ | ⟨_, h⟩ <;> cases h
  simp only [not_or, not_exists] at hexchange
  obtain ⟨unconsumed, uncreated⟩ := hexchange
  have hfamilies : ∀ familyRef, ((w.store.apply write).families.get? familyRef).isSome
      ↔ (w.store.families.get? familyRef).isSome := by
    intro familyRef
    rw [families_apply, or_iff_right]
    rintro ⟨family, hfamily, -⟩
    exact uncreated family hfamily
  refine inv.frame (.work hi ha unconsumed uncreated) (consumes_eq_none hw unconsumed)
    (created_eq_none hw uncreated) hfamilies (fun h code hcode => ?_) fun h code hcode => ?_
  · simp only [codes_apply] at hcode
    cases write with
    | saveAuthorizationCode new =>
      obtain ⟨input, p, rfl⟩ := (advance_allows ha).2.code
      simp only [Record.get?_set] at hcode
      split_ifs at hcode with hh
      · cases hcode
        have hopen : code.consumedAt = none := code_unconsumed ha
        refine .inr ⟨hh, ?_⟩
        rw [issuedCodes_cons, issued, hw, ← hopen]
        exact List.mem_cons_self
      · exact .inl hcode
    | consumeAuthorizationCode => exact absurd rfl (unconsumed _ _)
    | _ => exact .inl hcode
  · rw [codes_apply]
    cases write with
    | saveAuthorizationCode new =>
      have hnew : w.store.codes.get? new.codeHash = none := by
        rw [Drawn, hw] at drawn
        exact drawn
      simp only
      rw [Record.get?_set_of_ne, hcode]
      rintro rfl
      rw [hnew] at hcode
      cases hcode
    | consumeAuthorizationCode => exact absurd rfl (unconsumed _ _)
    | _ => exact hcode

theorem Run.codes (h : Run S past w) (drawn : History.Every (Drawn S) past) : Codes S past w := by
  induction h with
  | init =>
    refine ⟨fun h code hcode => ?_, fun h => .inl rfl, fun i input record hi => ?_, fun c hc => ?_,
      fun familyRef => ?_, List.nodup_nil, List.nodup_nil⟩
    · simp [Store.empty] at hcode
    · simp at hi
    · exact absurd hc List.not_mem_nil
    · simp [Store.empty, creations]
  | step run taken ih => exact (ih drawn.2).step taken drawn.1

/-- In every run each token family stems from a code of its own, redeemed by one exchange. -/
theorem stems (h : Run S past w) (drawn : History.Every (Drawn S) past) : Stems S past w := by
  have inv := h.codes drawn
  refine ⟨fun familyRef hsome => ?_, inv.one, inv.distinct, fun i input message hi c hc => ?_⟩
  · obtain ⟨c, hc, href⟩ := (inv.families familyRef).1 hsome
    exact ⟨c, hc, href, (inv.created c hc).1⟩
  · rintro rfl
    obtain ⟨-, input', p, hi', hp⟩ := inv.created c hc
    rw [hi] at hi'
    cases hi'
    cases hp

/-- A code is exchanged, and a second time in vain. -/
theorem stems_replayed : ∃ past w, Run idService past w ∧ History.Every (Drawn idService) past
    ∧ w.store.families.entries.length = 1 ∧ (creations idService past).length = 1
    ∧ Stems idService past w := by
  have hplay : (idRun (asked ++ approve :: (List.replicate 6 (workOn 3 69) ++ exchange :: exchange
      :: (List.replicate 6 (workOn 4 73) ++ List.replicate 3 (workOn 5 0))))).map
        (fun v => decide (History.Every (Drawn idService) v.1
          ∧ v.2.store.families.entries.length = 1 ∧ (creations idService v.1).length = 1))
      = some true := by
    decide +kernel
  obtain ⟨v, hv, hdecide⟩ := Option.map_eq_some_iff.1 hplay
  obtain ⟨drawn, hlength, hone⟩ := of_decide_eq_true hdecide
  exact ⟨v.1, v.2, run_of_idRun hv, drawn, hlength, hone, stems (run_of_idRun hv) drawn⟩

end Agid.VeygritId
