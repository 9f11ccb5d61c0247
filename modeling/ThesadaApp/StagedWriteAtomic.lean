import ThesadaApp.StagedWrite

/-!
The staged write leaves the live file whole. An ack that is accepted has told the truth about a whole chunk, so
the staged file is the content when it is renamed; everything else the write sends touches the staged file only.
-/

namespace ThesadaApp.StagedWrite

section text

theorem digit_spec {d : Nat} (hd : d < 10) : isDigit (48 + d.toUInt8) = true ∧ (48 + d.toUInt8).toNat - 48 = d ∧
    special (48 + d.toUInt8) = false := by
  have hall : ∀ d : Fin 10, isDigit (48 + d.val.toUInt8) = true ∧ (48 + d.val.toUInt8).toNat - 48 = d.val ∧
      special (48 + d.val.toUInt8) = false := by decide
  exact hall ⟨d, hd⟩

/-- The digits of a number, the last one first. -/
theorem itoa_eq (n : Nat) : ∃ ds : List Nat, (∀ d ∈ ds, d < 10) ∧ itoa n = ds.reverse.map (fun d => 48 + d.toUInt8) ∧
    Nat.ofDigits 10 ds = n ∧ ds ≠ [] ∧ (n < 10000 → ds.length ≤ 4) := by
  by_cases hzero : n = 0
  · refine ⟨[0], ?_, ?_, ?_, List.cons_ne_nil _ _, fun _ => by simp⟩
    · simp
    · rw [itoa, if_pos hzero]
      rfl
    · rw [hzero]
      rfl
  · refine ⟨Nat.digits 10 n, fun d hd => Nat.digits_lt_base (by norm_num) hd, ?_, Nat.ofDigits_digits 10 n,
      Nat.digits_ne_nil_iff_ne_zero.mpr hzero, fun hn => ?_⟩
    · rw [itoa, if_neg hzero]
    · exact (Nat.digits_length_le_iff (by norm_num) n).mpr (by norm_num; omega)

theorem isDigit_of_mem_itoa {n : Nat} {b : UInt8} (hb : b ∈ itoa n) : isDigit b = true := by
  obtain ⟨ds, hlt, heq, -⟩ := itoa_eq n
  rw [heq] at hb
  obtain ⟨d, hd, rfl⟩ := List.mem_map.mp hb
  exact (digit_spec (hlt d (List.mem_reverse.mp hd))).1

theorem special_of_mem_itoa {n : Nat} {b : UInt8} (hb : b ∈ itoa n) : special b = false := by
  obtain ⟨ds, hlt, heq, -⟩ := itoa_eq n
  rw [heq] at hb
  obtain ⟨d, hd, rfl⟩ := List.mem_map.mp hb
  exact (digit_spec (hlt d (List.mem_reverse.mp hd))).2.2

theorem digitsValue_itoa (n : Nat) : digitsValue (itoa n) = n := by
  obtain ⟨ds, hlt, heq, hvalue, -⟩ := itoa_eq n
  rw [heq, digitsValue, List.foldl_map, List.foldl_reverse, ← hvalue, Nat.ofDigits_eq_foldr]
  have hfold : ∀ l : List Nat, (∀ d ∈ l, d < 10) →
      l.foldr (fun d acc => 10 * acc + ((48 + d.toUInt8).toNat - 48)) 0 = l.foldr (fun d acc => d + 10 * acc) 0 := by
    intro l
    induction l with
    | nil => intro _; rfl
    | cons d l ih =>
        intro hl
        rw [List.foldr_cons, List.foldr_cons, ih fun d' hd' => hl d' (List.mem_cons_of_mem d hd'),
          (digit_spec (hl d List.mem_cons_self)).2.1, Nat.add_comm]
  exact hfold ds hlt

theorem length_itoa {n : Nat} (hn : n < 10000) : (itoa n).length ≤ 4 := by
  obtain ⟨ds, -, heq, -, -, hlength⟩ := itoa_eq n
  rw [heq, List.length_map, List.length_reverse]
  exact hlength hn

theorem stripPrefix_append (p l : Bytes) : stripPrefix p (p ++ l) = some l := by
  rw [stripPrefix, if_pos (List.isPrefixOf_iff_prefix.mpr (List.prefix_append p l)), List.drop_left]

/-- The leading texts of an ack. -/
theorem stripAck {lead rest : Bytes} (hlead : lead = ascii "Wrote " ∨ lead = ascii "Appended ") :
    ((stripPrefix (ascii "Wrote ") (lead ++ rest)).orElse fun _ => stripPrefix (ascii "Appended ") (lead ++ rest)) =
      some rest := by
  rcases hlead with rfl | rfl
  · rw [stripPrefix_append]
    rfl
  · have hother : stripPrefix (ascii "Wrote ") (ascii "Appended " ++ rest) = none := rfl
    rw [hother, stripPrefix_append]
    rfl

/-- An ack cut to the buffer of the firmware says how many bytes were stored, if it is read at all. -/
theorem ackedBytes_line {lead path staged : Bytes} {stored n : Nat}
    (hlead : lead = ascii "Wrote " ∨ lead = ascii "Appended ") (hstored : stored < 10000)
    (h : ackedBytes [cutLine (lead ++ itoa stored ++ ascii " bytes to " ++ path)] staged = some n) : n = stored := by
  have hshort : (lead ++ itoa stored ++ ascii " bytes to ").length ≤ 63 := by
    have hdigits := length_itoa hstored
    have hmid : (ascii " bytes to ").length = 10 := rfl
    have hleadLength : lead.length ≤ 9 := by rcases hlead with rfl | rfl <;> decide
    rw [List.length_append, List.length_append]
    omega
  have hcut : cutLine (lead ++ itoa stored ++ ascii " bytes to " ++ path) =
      lead ++ (itoa stored ++ (ascii " bytes to " ++
        path.take (63 - (lead ++ itoa stored ++ ascii " bytes to ").length))) := by
    rw [cutLine, List.take_append, List.take_of_length_le hshort]
    simp only [List.append_assoc]
  have hmid : ascii " bytes to " = 32 :: ascii "bytes to " := rfl
  have hspace : isDigit 32 = false := by decide
  have hdigits : ∀ b ∈ itoa stored, isDigit b = true := fun b hb => isDigit_of_mem_itoa hb
  rw [hcut] at h
  simp only [ackedBytes, matchAck, stripAck hlead] at h
  rw [List.takeWhile_append_of_pos hdigits, List.dropWhile_append_of_pos hdigits] at h
  have htake : ∀ l, (ascii " bytes to " ++ l).takeWhile isDigit = [] := by
    intro l
    rw [hmid, List.cons_append, List.takeWhile_cons, hspace]
    rfl
  have hdrop : ∀ l, (ascii " bytes to " ++ l).dropWhile isDigit = ascii " bytes to " ++ l := by
    intro l
    rw [hmid, List.cons_append, List.dropWhile_cons, hspace]
    rfl
  rw [htake, hdrop, stripPrefix_append, List.append_nil] at h
  dsimp only at h
  split at h
  · cases h
  · next hmatch =>
      split at hmatch
      · cases hmatch
      · obtain ⟨rfl, rfl⟩ := Prod.mk.inj (Option.some.inj hmatch)
        split at h
        · cases h
        · split at h
          · rw [← Option.some.inj h, digitsValue_itoa]
          · cases h

end text

section parsing

variable {staged path : Bytes}

theorem notMem_of_plain {l : Bytes} {b : UInt8} (hplain : l.any special = false) (hb : special b = true) : b ∉ l := by
  intro hmem
  rw [List.any_eq_false.mp hplain b hmem |> Bool.eq_false_iff.mpr] at hb
  cases hb

theorem cutPayload_chunk (hplain : staged.any special = false) (chunk : Bytes) :
    cutPayload (staged ++ ascii "\n" ++ chunk) = some (staged, chunk) := by
  have hnewline : ascii "\n" ++ chunk = 10 :: chunk := rfl
  have hnone : ∀ b ∈ staged, decide (b ≠ 10) = true := by
    intro b hb
    refine decide_eq_true fun heq => notMem_of_plain hplain (b := 10) (by decide) ?_
    rwa [heq] at hb
  rw [cutPayload, List.append_assoc, hnewline, List.dropWhile_append_of_pos hnone,
    List.takeWhile_append_of_pos hnone]
  simp

theorem shellArgs_of_plain {line : Bytes} {args : List Bytes} (hsplit : line.splitOn 32 = args)
    (hplain : ∀ arg ∈ args, arg.any special = false) : shellArgs line = some args := by
  rw [shellArgs, hsplit]
  exact if_pos (List.all_eq_true.mpr fun arg harg => by rw [hplain arg harg]; rfl)

theorem splitOn_plain {arg : Bytes} (hplain : arg.any special = false) : arg.splitOn 32 = [arg] :=
  List.splitOn_eq_singleton (notMem_of_plain hplain (by decide))

theorem splitOn_blank {arg : Bytes} (hplain : arg.any special = false) (rest : Bytes) :
    (arg ++ ascii " " ++ rest).splitOn 32 = arg :: rest.splitOn 32 := by
  have hblank : ascii " " ++ rest = 32 :: rest := rfl
  rw [List.append_assoc, hblank, List.splitOn_append_cons_self, splitOn_plain hplain]
  rfl

theorem plain_itoa (n : Nat) : (itoa n).any special = false :=
  List.any_eq_false.mpr fun b hb => by rw [special_of_mem_itoa hb]; exact Bool.false_ne_true

theorem plain_staged (hplain : path.any special = false) : (path ++ stagedSuffix).any special = false := by
  rw [List.any_append, hplain]
  decide

end parsing

section commands

variable {env : Env} {staged path : Bytes} {files : Files} {outcome : Outcome}

/-- The leading text of the ack for the i-th chunk. -/
def ackLead (i : Nat) : Bytes := if i = 0 then ascii "Wrote " else ascii "Appended "

/-- The command of the i-th chunk. -/
def chunkCommand (staged chunk : Bytes) (i : Nat) : Command :=
  ⟨if i = 0 then .fsWrite else .fsAppend, staged ++ ascii "\n" ++ chunk⟩

/-- What the i-th chunk is put behind. -/
def chunkBase (files : Files) (staged : Bytes) (i : Nat) : Bytes := if i = 0 then [] else (files staged).getD []

theorem execute_chunk_done (hplain : staged.any special = false) (chunk : Bytes) (i count : Nat) :
    execute env files (chunkCommand staged chunk i) (.done count) =
      (Function.update files staged (some (chunkBase files staged i ++ chunk.take count)),
        okLine (ackLead i ++ itoa (chunk.take count).length ++ ascii " bytes to " ++ staged)) := by
  by_cases hfirst : i = 0
  · simp only [execute, chunkCommand, chunkBase, ackLead, if_pos hfirst, cutPayload_chunk hplain, List.nil_append]
  · simp only [execute, chunkCommand, chunkBase, ackLead, if_neg hfirst, cutPayload_chunk hplain]

theorem execute_chunk_refused (hplain : staged.any special = false) (chunk : Bytes) (i : Nat)
    (hrefused : ∀ count, outcome ≠ .done count) :
    execute env files (chunkCommand staged chunk i) outcome = (files, errLine (ascii "Failed to open file")) := by
  by_cases hfirst : i = 0
  all_goals cases outcome with
  | done count => exact absurd rfl (hrefused count)
  | lost => simp only [execute, chunkCommand, hfirst, if_true, if_false, cutPayload_chunk hplain]
  | refused => simp only [execute, chunkCommand, hfirst, if_true, if_false, cutPayload_chunk hplain]

theorem execute_cat (env : Env) (files : Files) (outcome : Outcome) (hplain : staged.any special = false) (size : Nat) :
    (execute env files ⟨.fsCat, staged ++ ascii " " ++ itoa size ++ ascii " 1"⟩ outcome).1 = files ∧
      ∀ total, (execute env files ⟨.fsCat, staged ++ ascii " " ++ itoa size ++ ascii " 1"⟩ outcome).2.total = some total →
        ∃ body, files staged = some body ∧ body.length = total := by
  have hargs : shellArgs (staged ++ ascii " " ++ itoa size ++ ascii " 1") = some [staged, itoa size, ascii "1"] := by
    refine shellArgs_of_plain ?_ ?_
    · have hone : ascii " 1" = ascii " " ++ ascii "1" := rfl
      rw [hone, List.append_assoc (staged ++ ascii " "), splitOn_blank hplain, ← List.append_assoc,
        splitOn_blank (plain_itoa size)]
      rfl
    · intro arg harg
      rcases List.mem_cons.mp harg with rfl | harg
      · exact hplain
      · rcases List.mem_cons.mp harg with rfl | harg
        · exact plain_itoa size
        · rw [List.mem_singleton.mp harg]
          decide
  simp only [execute, hargs]
  split
  · next heq => exact ⟨rfl, fun total htotal => ⟨_, heq, Option.some.inj htotal⟩⟩
  · exact ⟨rfl, fun total htotal => by cases htotal⟩

theorem execute_mv (env : Env) (files : Files) (outcome : Outcome) (hstaged : staged.any special = false)
    (hpath : path.any special = false) :
    execute env files ⟨.fsMv, staged ++ ascii " " ++ path⟩ outcome = (files, okLine (ascii "Failed to rename")) ∨
      ∃ count body, outcome = .done count ∧ files staged = some body ∧
        execute env files ⟨.fsMv, staged ++ ascii " " ++ path⟩ outcome =
          (Function.update (Function.update files path (some body)) staged none,
            okLine (ascii "Renamed " ++ staged ++ ascii " -> " ++ path)) := by
  have hargs : shellArgs (staged ++ ascii " " ++ path) = some [staged, path] := by
    refine shellArgs_of_plain ?_ ?_
    · rw [splitOn_blank hstaged, splitOn_plain hpath]
    · intro arg harg
      rcases List.mem_cons.mp harg with rfl | harg
      · exact hstaged
      · rwa [List.mem_singleton.mp harg]
  simp only [execute, hargs]
  split
  · next count body heq => exact Or.inr ⟨count, body, rfl, heq, rfl⟩
  · exact Or.inl rfl

theorem execute_rm (hplain : staged.any special = false) {p : Bytes} (hp : p ≠ staged) :
    (execute env files ⟨.fsRm, staged⟩ outcome).1 p = files p := by
  have hargs : shellArgs staged = some [staged] :=
    shellArgs_of_plain (splitOn_plain hplain) fun arg harg => by rwa [List.mem_singleton.mp harg]
  simp only [execute, hargs]
  split
  · exact Function.update_of_ne hp _ _
  · rfl

end commands

/-- What happened since is no rename and left every file but the staged one alone. -/
structure StagedOnly (staged : Bytes) (d d' : Device) : Prop where
  files : ∀ p, p ≠ staged → d'.files p = d.files p
  sent : ∃ cs : List (Command × Fate), d'.sent = d.sent ++ cs ∧ ∀ c ∈ cs, c.1.name ≠ .fsMv

namespace StagedOnly

variable {staged : Bytes} {d₁ d₂ d₃ : Device}

theorem refl (d : Device) : StagedOnly staged d d :=
  ⟨fun _ _ => rfl, [], (List.append_nil _).symm, fun _ hc => absurd hc List.not_mem_nil⟩

theorem trans (hfirst : StagedOnly staged d₁ d₂) (hsecond : StagedOnly staged d₂ d₃) : StagedOnly staged d₁ d₃ := by
  obtain ⟨cs, hcs, hname⟩ := hfirst.sent
  obtain ⟨cs', hcs', hname'⟩ := hsecond.sent
  refine ⟨fun p hp => (hsecond.files p hp).trans (hfirst.files p hp), cs ++ cs', ?_, fun c hc => ?_⟩
  · rw [hcs', hcs, List.append_assoc]
  · exact (List.mem_append.mp hc).elim (hname c) (hname' c)

end StagedOnly

section steps

variable {env : Env} {staged path label : Bytes} {d : Device} {c : Command}

theorem request_sent : (request env d c).1.sent = d.sent ++ [(c, env.schedule d.sent.length)] := by
  rw [request]
  split <;> rfl

theorem request_files (env : Env) (d : Device) (c : Command) :
    (request env d c).1.files = d.files ∨
      (request env d c).1.files = (execute env d.files c (env.schedule d.sent.length).outcome).1 := by
  rw [request]
  split
  · exact Or.inl rfl
  · exact Or.inr rfl

/-- Only an honest reply to an executed command says that all is well. -/
theorem request_response {resp : CLIResponse} (hreply : (request env d c).2 = .response resp) (hgood : resp.ok = true) :
    (request env d c).1.files = (execute env d.files c (env.schedule d.sent.length).outcome).1 ∧
      resp = (execute env d.files c (env.schedule d.sent.length).outcome).2 := by
  have hhonest : ∀ (answer : Answer) (honest : Reply), answer.reply honest = .response resp →
      honest = .response resp := by
    intro answer honest hanswer
    cases answer with
    | honest => exact hanswer
    | deviceError output =>
        cases hanswer
        cases hgood
    | transport timedOut text => cases hanswer
  rw [request] at hreply ⊢
  split at hreply
  · cases hhonest _ _ hreply
  · next hran =>
      rw [if_neg hran]
      exact ⟨rfl, (Reply.response.inj (hhonest _ _ hreply)).symm⟩

theorem stepResult_ok {r : Reply} {resp : CLIResponse} (h : stepResult env label r = .ok resp) :
    r = .response resp ∧ resp.ok = true := by
  match r with
  | .err true _ => cases h
  | .err false _ => cases h
  | .response resp' =>
      rw [stepResult] at h
      split at h
      · next hgood =>
          cases h
          exact ⟨rfl, hgood⟩
      · cases h

/-- A command that touches the staged file at most, and is no rename. -/
def TouchesStaged (env : Env) (staged : Bytes) (c : Command) : Prop :=
  c.name ≠ .fsMv ∧ ∀ files outcome p, p ≠ staged → (execute env files c outcome).1 p = files p

theorem step_stagedOnly (label : Bytes) (hc : TouchesStaged env staged c) : StagedOnly staged d (step env label c d).1 := by
  refine ⟨fun p hp => ?_, [(c, env.schedule d.sent.length)], request_sent, fun c' hc' => ?_⟩
  · rcases request_files _ _ _ with hsame | hran
    · exact congrFun hsame p
    · exact (congrFun hran p).trans (hc.2 _ _ p hp)
  · rw [List.mem_singleton.mp hc']
    exact hc.1

/-- A step that went well was executed and answered honestly. -/
theorem step_ok {resp : CLIResponse} (hstep : (step env label c d).2 = .ok resp) :
    resp.ok = true ∧ (step env label c d).1.files = (execute env d.files c (env.schedule d.sent.length).outcome).1 ∧
      resp = (execute env d.files c (env.schedule d.sent.length).outcome).2 := by
  obtain ⟨hreply, hgood⟩ := stepResult_ok hstep
  exact ⟨hgood, request_response hreply hgood⟩

theorem touchesStaged_chunk (env : Env) (hplain : staged.any special = false) (chunk : Bytes) (i : Nat) :
    TouchesStaged env staged (chunkCommand staged chunk i) := by
  refine ⟨?_, fun files outcome p hp => ?_⟩
  · by_cases hfirst : i = 0
    · simp only [chunkCommand, if_pos hfirst, ne_eq, reduceCtorEq, not_false_eq_true]
    · simp only [chunkCommand, if_neg hfirst, ne_eq, reduceCtorEq, not_false_eq_true]
  · cases outcome with
    | done count =>
        rw [execute_chunk_done hplain]
        exact Function.update_of_ne hp _ _
    | lost => rw [execute_chunk_refused hplain chunk i fun _ => Outcome.noConfusion]
    | refused => rw [execute_chunk_refused hplain chunk i fun _ => Outcome.noConfusion]

/-- Whatever failed, a clean-up is one removal. -/
theorem cleanup_stagedOnly (hplain : staged.any special = false) :
    StagedOnly staged d (step env (ascii "remove " ++ staged) ⟨.fsRm, staged⟩ d).1 :=
  step_stagedOnly (ascii "remove " ++ staged) ⟨CommandName.noConfusion, fun _ _ _ hp => execute_rm hplain hp⟩

/-- A chunk whose ack is accepted is in the staged file as a whole. -/
theorem chunk_acked (hplain : staged.any special = false) {chunk : Bytes} {i : Nat} {resp : CLIResponse}
    (hlength : chunk.length < 10000) (hstep : (step env label (chunkCommand staged chunk i) d).2 = .ok resp)
    (hack : ackedBytes resp.output staged = some chunk.length) :
    (step env label (chunkCommand staged chunk i) d).1.files staged = some (chunkBase d.files staged i ++ chunk) := by
  obtain ⟨hgood, hfiles, hresp⟩ := step_ok hstep
  cases houtcome : (env.schedule d.sent.length).outcome with
  | done count =>
      rw [houtcome, execute_chunk_done hplain] at hfiles hresp
      have hstored : (chunk.take count).length < 10000 := by
        rw [List.length_take]
        omega
      have hlead : ackLead i = ascii "Wrote " ∨ ackLead i = ascii "Appended " := by
        unfold ackLead
        split
        · exact Or.inl rfl
        · exact Or.inr rfl
      rw [hresp] at hack
      have hcount := ackedBytes_line hlead hstored hack
      have hwhole : chunk.take count = chunk := by
        rw [List.length_take] at hcount
        exact List.take_of_length_le (by omega)
      rw [hfiles, hwhole]
      exact Function.update_self _ _ _
  | lost =>
      rw [houtcome, execute_chunk_refused hplain chunk i fun _ => Outcome.noConfusion] at hresp
      rw [hresp] at hgood
      cases hgood
  | refused =>
      rw [houtcome, execute_chunk_refused hplain chunk i fun _ => Outcome.noConfusion] at hresp
      rw [hresp] at hgood
      cases hgood

end steps

section loop

variable {env : Env} {staged path : Bytes}

theorem take_chunk (content : Bytes) (i : Nat) :
    content.take (i * writeChunkSize) ++ (content.drop (i * writeChunkSize)).take writeChunkSize =
      content.take ((i + 1) * writeChunkSize) := by
  rw [Nat.succ_mul, List.take_add]

/-- Every chunk sent, the staged file is the content up to there. By induction on the chunks left; before a chunk
that is not the first the staged file is the content up to it. -/
theorem sendChunks_spec (env : Env) (hplain : staged.any special = false) (content : Bytes) (total remaining : Nat) :
    ∀ (i : Nat) (d : Device), (0 < i → d.files staged = some (content.take (i * writeChunkSize))) →
      StagedOnly staged d (sendChunks env staged content total remaining i d).1 ∧
        ((sendChunks env staged content total remaining i d).2 = none → 0 < i + remaining →
          (sendChunks env staged content total remaining i d).1.files staged =
            some (content.take ((i + remaining) * writeChunkSize))) := by
  induction remaining with
  | zero =>
      intro i d hbefore
      exact ⟨StagedOnly.refl d, fun _ hi => hbefore hi⟩
  | succ remaining ih =>
      intro i d hbefore
      have hstep := step_stagedOnly (d := d) (ascii "chunk " ++ itoa (i + 1) ++ ascii "/" ++ itoa total)
        (touchesStaged_chunk env hplain ((content.drop (i * writeChunkSize)).take writeChunkSize) i)
      rw [chunkCommand] at hstep
      rw [sendChunks]
      dsimp only
      split
      · next resp f hfailed =>
          split
          · exact ⟨hstep, nofun⟩
          · exact ⟨hstep.trans (cleanup_stagedOnly hplain), nofun⟩
      · next resp hok =>
          split
          · next hack =>
              have hstaged := chunk_acked hplain (by rw [List.length_take]; unfold writeChunkSize; omega) hok hack
              have hafter := ih (i + 1) _ fun _ => by
                rw [chunkCommand] at hstaged
                rw [hstaged, ← take_chunk]
                by_cases hfirst : i = 0
                · rw [chunkBase, if_pos hfirst, hfirst, Nat.zero_mul, List.take_zero]
                · rw [chunkBase, if_neg hfirst, hbefore (Nat.pos_of_ne_zero hfirst), Option.getD_some]
              refine ⟨hstep.trans hafter.1, fun hnone _ => ?_⟩
              rw [hafter.2 hnone (by omega), Nat.add_right_comm, Nat.add_assoc]
          · exact ⟨hstep.trans (cleanup_stagedOnly hplain), nofun⟩

theorem writeChunkCount_covers (n : Nat) : n ≤ writeChunkCount n * writeChunkSize := by
  unfold writeChunkCount writeChunkSize
  omega

/-- What a call may leave of the live file, from a device on which it is as before the call. -/
structure Atomic (path content : Bytes) (d d' : Device) (result : Except WriteFailure Unit) : Prop where
  live : d'.files path = d.files path ∨ d'.files path = some content
  stored : result = .ok () → d'.files path = some content ∧ d'.files (path ++ stagedSuffix) = none
  sent : ∃ cs : List (Command × Fate), d'.sent = d.sent ++ cs ∧
    ((∃ f, result = .error f) → (∀ c ∈ cs, c.1.name = .fsMv → ∀ count, c.2.outcome ≠ .done count) →
      d'.files path = d.files path)

theorem path_ne_staged (path : Bytes) : path ≠ path ++ stagedSuffix := by
  intro heq
  have hlength := congrArg List.length heq
  rw [List.length_append] at hlength
  have hsuffix : stagedSuffix.length = 4 := rfl
  omega

variable {content : Bytes} {d d' d'' : Device}

theorem Atomic.of_stagedOnly (f : WriteFailure) (h : StagedOnly (path ++ stagedSuffix) d d') :
    Atomic path content d d' (.error f) := by
  have hlive := h.files path (path_ne_staged path)
  obtain ⟨cs, hcs, -⟩ := h.sent
  exact ⟨Or.inl hlive, nofun, cs, hcs, fun _ _ => hlive⟩

theorem Atomic.after {result : Except WriteFailure Unit} (hfirst : StagedOnly (path ++ stagedSuffix) d d')
    (h : Atomic path content d' d'' result) : Atomic path content d d'' result := by
  have hlive := hfirst.files path (path_ne_staged path)
  obtain ⟨cs, hcs, -⟩ := hfirst.sent
  obtain ⟨cs', hcs', hfailed⟩ := h.sent
  refine ⟨hlive ▸ h.live, h.stored, cs ++ cs', ?_, fun herr hnone => ?_⟩
  · rw [hcs', hcs, List.append_assoc]
  · rw [hfailed herr fun c hc => hnone c (List.mem_append_right _ hc), hlive]

end loop

section write

variable {env : Env} {path content : Bytes} {d : Device}

theorem renameStaged_atomic (hpath : path.any special = false)
    (hstaged : d.files (path ++ stagedSuffix) = some content) :
    Atomic path content d (renameStaged env (path ++ stagedSuffix) path d).1
      (renameStaged env (path ++ stagedSuffix) path d).2 := by
  have hplain := plain_staged hpath
  let label := ascii "rename " ++ (path ++ stagedSuffix) ++ ascii " to " ++ path
  let c : Command := ⟨.fsMv, path ++ stagedSuffix ++ ascii " " ++ path⟩
  let fate := env.schedule d.sent.length
  have hsent : (step env label c d).1.sent = d.sent ++ [(c, fate)] := request_sent
  -- the command did nothing, or it was executed and moved the content
  have hfiles : (step env label c d).1.files = d.files ∨ (∃ count, fate.outcome = .done count) ∧
      (step env label c d).1.files =
        Function.update (Function.update d.files path (some content)) (path ++ stagedSuffix) none := by
    rcases request_files env d c with hsame | hran
    · exact Or.inl hsame
    · rcases execute_mv env d.files fate.outcome hplain hpath with
        hrefused | ⟨count, body, hdone, hbody, hmoved⟩
      · exact Or.inl (hran.trans (congrArg Prod.fst hrefused))
      · rw [hstaged] at hbody
        obtain rfl := Option.some.inj hbody
        exact Or.inr ⟨⟨count, hdone⟩, hran.trans (congrArg Prod.fst hmoved)⟩
  have hlive : (Function.update (Function.update d.files path (some content)) (path ++ stagedSuffix) none) path =
      some content := by
    rw [Function.update_of_ne (path_ne_staged path), Function.update_self]
  -- a clean-up behind it leaves the live file alone
  have hfailed : ∀ (d' : Device) (f : WriteFailure), StagedOnly (path ++ stagedSuffix) (step env label c d).1 d' →
      Atomic path content d d' (.error f) := by
    intro d' f hrest
    have hsame := hrest.files path (path_ne_staged path)
    obtain ⟨cs, hcs, -⟩ := hrest.sent
    refine ⟨?_, nofun, (c, fate) :: cs, ?_, fun _ hnone => ?_⟩
    · rcases hfiles with hkept | ⟨-, hmoved⟩
      · exact Or.inl (hsame.trans (congrFun hkept path))
      · exact Or.inr (hsame.trans ((congrFun hmoved path).trans hlive))
    · rw [hcs, hsent, List.append_assoc, List.singleton_append]
    · rcases hfiles with hkept | ⟨⟨count, hdone⟩, -⟩
      · exact hsame.trans (congrFun hkept path)
      · exact absurd hdone (hnone _ List.mem_cons_self rfl count)
  rw [renameStaged]
  split
  · exact hfailed _ _ (cleanup_stagedOnly hplain)
  · next resp hok =>
      split
      · next hrenamed =>
          obtain ⟨-, hran, hresp⟩ := step_ok hok
          rcases execute_mv env d.files fate.outcome hplain hpath with
            hrefused | ⟨count, body, hdone, hbody, hmoved⟩
          · have hnot : outputHasPrefix (okLine (ascii "Failed to rename")).output (ascii "Renamed ") = false := by
              decide
            rw [hresp, hrefused, hnot] at hrenamed
            cases hrenamed
          · rw [hstaged] at hbody
            obtain rfl := Option.some.inj hbody
            have hafter := hran.trans (congrArg Prod.fst hmoved)
            have hnow := (congrFun hafter path).trans hlive
            exact ⟨Or.inr hnow, fun _ => ⟨hnow, (congrFun hafter _).trans (Function.update_self _ _ _)⟩,
              [(c, fate)], hsent, fun herr => absurd herr (by rintro ⟨f, hf⟩; cases hf)⟩
      · exact hfailed _ _ (cleanup_stagedOnly hplain)

theorem touchesStaged_cat (env : Env) {staged : Bytes} (hplain : staged.any special = false) (size : Nat) :
    TouchesStaged env staged ⟨.fsCat, staged ++ ascii " " ++ itoa size ++ ascii " 1"⟩ :=
  ⟨CommandName.noConfusion, fun _ _ p _ => congrFun (execute_cat env _ _ hplain size).1 p⟩

theorem checkStaged_atomic (hpath : path.any special = false)
    (hstaged : ∀ body, d.files (path ++ stagedSuffix) = some body → body.length = content.length → body = content) :
    Atomic path content d (checkStaged env (path ++ stagedSuffix) path content.length d).1
      (checkStaged env (path ++ stagedSuffix) path content.length d).2 := by
  have hplain := plain_staged hpath
  have hstep := step_stagedOnly (d := d) (ascii "size check of " ++ (path ++ stagedSuffix))
    (touchesStaged_cat env hplain content.length)
  rw [checkStaged]
  dsimp only
  split
  · exact Atomic.of_stagedOnly _ (hstep.trans (cleanup_stagedOnly hplain))
  · next resp hok =>
      split
      · next htotal =>
          obtain ⟨-, hfiles, hresp⟩ := step_ok hok
          obtain ⟨hsame, hsize⟩ := execute_cat env d.files
            (env.schedule d.sent.length).outcome hplain content.length
          rw [hresp] at htotal
          obtain ⟨body, hbody, hlength⟩ := hsize _ htotal
          refine Atomic.after hstep (renameStaged_atomic hpath ?_)
          rw [hfiles, hsame, hbody, hstaged body hbody hlength]
      · exact Atomic.of_stagedOnly _ (hstep.trans (cleanup_stagedOnly hplain))

/-- The invariant of the call, at every device it may find. -/
theorem stagedWrite_spec (env : Env) (path content : Bytes) (d : Device) :
    Atomic path content d (stagedWrite env path content d).1 (stagedWrite env path content d).2 := by
  rw [stagedWrite]
  split
  · exact Atomic.of_stagedOnly _ (StagedOnly.refl d)
  · next hspecial =>
      split
      · exact Atomic.of_stagedOnly _ (StagedOnly.refl d)
      · have hpath : path.any special = false := Bool.eq_false_iff.mpr hspecial
        obtain ⟨honly, hstored⟩ := sendChunks_spec env (plain_staged hpath) content
          (writeChunkCount content.length) (writeChunkCount content.length) 0 d fun hpos => absurd hpos (lt_irrefl 0)
        dsimp only
        split
        · exact Atomic.of_stagedOnly _ honly
        · next hsent =>
            refine Atomic.after honly (checkStaged_atomic hpath fun body hbody hlength => ?_)
            rcases Nat.eq_zero_or_pos content.length with hempty | hpos
            · rw [List.eq_nil_of_length_eq_zero hempty, List.eq_nil_of_length_eq_zero (hlength.trans hempty)]
            · -- some chunk was sent, and the chunks are all of the content
              have hcovers := writeChunkCount_covers content.length
              have hcount : 0 < writeChunkCount content.length := by
                rcases Nat.eq_zero_or_pos (writeChunkCount content.length) with hzero | hcount
                · rw [hzero, Nat.zero_mul] at hcovers
                  omega
                · exact hcount
              rw [hstored hsent (by omega), Nat.zero_add, List.take_of_length_le hcovers] at hbody
              exact (Option.some.inj hbody).symm

/-- For every file system, path, content and schedule: the live file is as before or the content; after a success it
is the content and the staged file is gone; after an error without an executed rename it is as before. -/
theorem stagedWrite_atomic (env : Env) (files : Files) (path content : Bytes) :
    let r := stagedWrite env path content ⟨files, []⟩
    (r.1.files path = files path ∨ r.1.files path = some content) ∧
      (r.2 = .ok () → r.1.files path = some content ∧ r.1.files (path ++ stagedSuffix) = none) ∧
      ((∃ f, r.2 = .error f) →
        (∀ sent ∈ r.1.sent, sent.1.name = .fsMv → ∀ count, sent.2.outcome ≠ .done count) →
        r.1.files path = files path) := by
  obtain ⟨hlive, hstored, cs, hcs, hfailed⟩ := stagedWrite_spec env path content ⟨files, []⟩
  rw [List.nil_append] at hcs
  exact ⟨hlive, hstored, fun herr hnone => hfailed herr (hcs ▸ hnone)⟩

/-- Every command runs and every reply is honest. -/
def quiet : Env :=
  ⟨fun _ => ⟨.done writeChunkSize, .honest⟩, fun _ files => (files, errLine []), ascii "8s", fun text => text⟩

example : let r := stagedWrite quiet (ascii "/config.json") (ascii "\x7b\x7d") ⟨fun _ => none, []⟩
    r.2.isOk = true ∧ r.1.files (ascii "/config.json") = some (ascii "\x7b\x7d") := by
  decide +kernel

end write

end ThesadaApp.StagedWrite
