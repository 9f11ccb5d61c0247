import Mathlib.Data.List.FinRange
import ThesadaApp.CliRequests
import ThesadaApp.PartialMap

/-!
A reply on several pages is assembled when its last missing page is read, whatever the order of the pages and however
often each comes.
-/

namespace ThesadaApp.Cli

/-- A reply on the pages up to the last. A page may leave out that it is the first, and that it is the last. -/
structure PagedReply where
  last : Nat
  frame : Fin (last + 1) → CLIResponse
  page : ∀ i, (frame i).page.getD 0 = (i.val : Int)
  more : ∀ i, (frame i).more = some true ↔ i ≠ Fin.last last

/-- A response that stands for all of its pages. -/
def CLIResponse.whole (resp : CLIResponse) (output : List String) : CLIResponse :=
  { resp with output := output, page := none, more := none }

namespace PagedReply

variable (r : PagedReply)

/-- The outputs of the pages, in the order of the pages. -/
def output : List String := (List.finRange (r.last + 1)).flatMap fun i => (r.frame i).output

/-- The response that all pages make: the fields of the last, the outputs of all. -/
def response : CLIResponse := (r.frame (Fin.last r.last)).whole r.output

/-- The pages from the first to the last are looked up one by one. -/
theorem combined_eq (p : Pages) (last : Nat) : p.combined (last : Int) =
    (((List.finRange (last + 1)).map fun i => (i.val : Int)).mapM p.pages).map List.flatten := by
  have hrange : (do
      let i ← List.range ((last : Int) + 1).toNat
      pure (i : Int)) = (List.finRange (last + 1)).map fun i => (i.val : Int) := by
    have hcount : ((last : Int) + 1).toNat = last + 1 := by omega
    rw [bind_pure_comp, List.map_eq_map, hcount, ← List.map_coe_finRange_eq_range, List.map_map]
    rfl
  rw [Pages.combined, hrange]

/-- What the loop holds once it has read some of the pages. -/
structure Held (read : List (Fin (r.last + 1))) (p : Pages) : Prop where
  pages : ∀ i : Fin (r.last + 1), p.pages (i.val : Int) = if i ∈ read then some (r.frame i).output else none
  final : p.final = if Fin.last r.last ∈ read then some (r.frame (Fin.last r.last)) else none

theorem held_empty : r.Held [] .empty := ⟨fun _ => rfl, rfl⟩

variable {r} {read : List (Fin (r.last + 1))} {p : Pages}

theorem Held.take (h : r.Held read p) (i : Fin (r.last + 1)) : r.Held (read ++ [i]) (p.take (r.frame i)) where
  pages j := by
    rw [Pages.take, r.page i]
    by_cases hij : j = i
    · subst hij
      simp
    · have hne : (j.val : Int) ≠ (i.val : Int) := fun heq => hij (Fin.ext (Int.ofNat_inj.mp heq))
      have hmem : j ∈ read ++ [i] ↔ j ∈ read := by simp [hij]
      simp only [hmem, ← h.pages j]
      exact Function.update_of_ne hne _ _
  final := by
    have hmore := r.more i
    by_cases hi : i = Fin.last r.last
    · subst hi
      rw [Pages.take, if_neg (fun hm => hmore.mp hm rfl)]
      simp
    · rw [Pages.take, if_pos (hmore.mpr hi), h.final]
      simp [Ne.symm hi]

/-- Nothing is assembled while a page is missing. -/
theorem Held.assemble_eq_none (h : r.Held read p) {i : Fin (r.last + 1)} (hi : i ∉ read) : p.assemble = none := by
  rw [Pages.assemble, h.final]
  split_ifs with hlast
  · have hmem : (i.val : Int) ∈ (List.finRange (r.last + 1)).map fun i => (i.val : Int) :=
      List.mem_map_of_mem (List.mem_finRange i)
    have hmissing : p.pages (i.val : Int) = none := by rw [h.pages i, if_neg hi]
    rw [Option.bind_some, r.page, Fin.val_last, combined_eq, PartialMap.mapM_none hmem hmissing]
    rfl
  · rfl

/-- The response is assembled when all are there. -/
theorem Held.assemble_eq_some (h : r.Held read p) (hall : ∀ i, i ∈ read) : p.assemble = some r.response := by
  have hpages : ((List.finRange (r.last + 1)).mapM fun i => p.pages (i.val : Int)) =
      some ((List.finRange (r.last + 1)).map fun i => (r.frame i).output) :=
    PartialMap.mapM_some fun i _ => by rw [h.pages i, if_pos (hall i)]
  have hcombined : p.combined (r.last : Int) = some r.output := by
    rw [combined_eq, List.mapM_map]
    exact congrArg (Option.map List.flatten) hpages
  rw [Pages.assemble, h.final, if_pos (hall _), Option.bind_some, r.page, Fin.val_last, hcombined]
  rfl

theorem Held.assemble (h : r.Held read p) :
    p.assemble = if ∀ i, i ∈ read then some r.response else none := by
  split_ifs with hall
  · exact h.assemble_eq_some hall
  · obtain ⟨i, hi⟩ := not_forall.mp hall
    exact h.assemble_eq_none hi

/-- The loop goes on until the last missing page is read, and no further. -/
theorem Held.await (h : r.Held read p) (hmissing : ¬ ∀ i, i ∈ read) (order : List (Fin (r.last + 1)))
    (rest : List (Option CLIResponse)) :
    ((¬ ∀ i, i ∈ read ++ order) → p.await (order.map fun i => some (r.frame i)) = .waiting) ∧
    ((∀ i, i ∈ read ++ order) → p.await ((order.map fun i => some (r.frame i)) ++ rest) = .response r.response) := by
  induction order generalizing read p with
  | nil =>
      rw [List.append_nil]
      exact ⟨fun _ => rfl, fun hall => absurd hall hmissing⟩
  | cons i order ih =>
      have htake := h.take i
      have hassoc : read ++ i :: order = (read ++ [i]) ++ order := by simp
      rw [List.map_cons, List.cons_append, Pages.await, Pages.await, htake.assemble, hassoc]
      split_ifs with hall
      · have hmore : ∀ j, j ∈ (read ++ [i]) ++ order := fun j => List.mem_append_left _ (hall j)
        exact ⟨fun hnot => absurd hmore hnot, fun _ => rfl⟩
      · exact ih htake hall

/-- A response that is not paged is a reply on one page. -/
def single (resp : CLIResponse) (hpage : resp.page = none) (hmore : resp.more = none) : PagedReply where
  last := 0
  frame := fun _ => resp
  page i := by simp [hpage]
  more i := by simp [hmore, Fin.eq_zero i]

theorem response_single (resp : CLIResponse) (hpage : resp.page = none) (hmore : resp.more = none) :
    (single resp hpage hmore).response = resp := by
  have houtput : (single resp hpage hmore).output = resp.output := List.append_nil _
  rw [response, houtput, CLIResponse.whole]
  simp [single, ← hpage, ← hmore]

end PagedReply

/-- A response that is not paged is returned at once. -/
theorem awaitPagedCLIResponse_single {resp : CLIResponse} (hpage : resp.page = none) (hmore : resp.more = none)
    (rest : List (Option CLIResponse)) : awaitPagedCLIResponse (some resp :: rest) = .response resp := by
  let r := PagedReply.single resp hpage hmore
  have hmissing : ¬ ∀ i : Fin (r.last + 1), i ∈ ([] : List (Fin (r.last + 1))) := fun hall =>
    List.not_mem_nil (hall 0)
  have hawait := (r.held_empty.await hmissing [(0 : Fin 1)] rest).2 fun i =>
    List.mem_singleton.mpr (Fin.eq_zero (i : Fin 1))
  rw [PagedReply.response_single] at hawait
  exact hawait

/-- A reply on any number of pages is returned exactly when every page has been read, in whatever order they come
and with whatever duplicates, and is made of all of them. A reply that is not paged is returned as it is. -/
theorem awaitPagedCLIResponse_pages :
    (∀ (r : PagedReply) (order : List (Fin (r.last + 1))),
      ((¬ ∀ i, i ∈ order) → awaitPagedCLIResponse (order.map fun i => some (r.frame i)) = .waiting) ∧
      ((∀ i, i ∈ order) → ∀ rest : List (Option CLIResponse),
        awaitPagedCLIResponse ((order.map fun i => some (r.frame i)) ++ rest) = .response r.response)) ∧
    ∀ resp : CLIResponse, resp.page = none → resp.more = none → ∀ rest : List (Option CLIResponse),
      awaitPagedCLIResponse (some resp :: rest) = .response resp := by
  constructor
  · intro r order
    have hmissing : ¬ ∀ i : Fin (r.last + 1), i ∈ ([] : List (Fin (r.last + 1))) := fun hall =>
      List.not_mem_nil (hall (Fin.last r.last))
    have hawait := r.held_empty.await hmissing order
    exact ⟨(hawait []).1, fun hall rest => (hawait rest).2 hall⟩
  · intro resp hpage hmore rest
    exact awaitPagedCLIResponse_single hpage hmore rest

/-- A frame of a reply with one line on each page. -/
def frameOf (page : Nat) (more : Bool) (line : String) : CLIResponse where
  ok := true
  output := [line]
  page := some page
  more := some more
  total := none
  offset := none
  length := none
  done := none
  data := none
  cmd := "help"
  reqID := "r"

/-- A reply on two pages. -/
def twoPages : PagedReply where
  last := 1
  frame i := if i = 0 then frameOf 0 true "a" else frameOf 1 false "b"
  page := by decide
  more := by decide

/-- The last page first, and the first page twice. -/
theorem awaitPagedCLIResponse_outOfOrder :
    awaitPagedCLIResponse [some (frameOf 1 false "b")] = .waiting ∧
    awaitPagedCLIResponse [some (frameOf 1 false "b"), some (frameOf 0 true "a"), some (frameOf 0 true "a")] =
      .response ((frameOf 1 false "b").whole ["a", "b"]) ∧
    awaitPagedCLIResponse [some ((frameOf 0 false "a").whole ["a"])] =
      .response ((frameOf 0 false "a").whole ["a"]) := by
  obtain ⟨hpaged, hsingle⟩ := awaitPagedCLIResponse_pages
  have hpages := hpaged twoPages
  exact ⟨(hpages [(1 : Fin 2)]).1 (by decide),
    (hpages [(1 : Fin 2), (0 : Fin 2)]).2 (by decide) [some (frameOf 0 true "a")],
    hsingle ((frameOf 0 false "a").whole ["a"]) rfl rfl []⟩

end ThesadaApp.Cli
