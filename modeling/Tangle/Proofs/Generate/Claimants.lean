import Tangle.Proofs.Generate.Resolution

/-!
Contract: who gets a path that several candidates ask for.

Owns: `firstClaims` and `repeatedClaims`, which divide the candidates by what stands ahead of
them; that the files are the first and the reports the second; and where the block of a kept
file stands in the document.

Does **not** own: what the files hold (`Tangle.Proofs.Generate.Layout`).

## Two orders

Candidates come group by group, and a group comes where its first block stands. Blocks of
different groups may alternate in the document, so a candidate that comes first may belong to
a block that comes later. What survives of the document's order is that the group of the kept
file was opened by a block that does not come after the one turned away.
-/

set_option autoImplicit false

namespace Tangle.Generate

open Tangle.Document

/-! ## First and repeated claims -/

def claimed (asked : List Candidate) (path : String) : Bool :=
  asked.any fun claim => claim.file.path == path

/-- The candidates with a path that one ahead of them has, or (`again` being false) with one
that none ahead of them has. -/
def claimsWhere (again : Bool) (asked : List Candidate) : List Candidate :=
  (asked.zipIdx.filter fun entry =>
    claimed (asked.take entry.2) entry.1.file.path == again).map Prod.fst

/-- The candidates with a path that none ahead of them has. -/
def firstClaims (asked : List Candidate) : List Candidate :=
  claimsWhere false asked

/-- The candidates with a path that one ahead of them has. -/
def repeatedClaims (asked : List Candidate) : List Candidate :=
  claimsWhere true asked

/-- The report on a candidate that is turned away. -/
def refusal (claim : Candidate) : Diagnostic :=
  report claim.requester (.duplicateOutput claim.file.path)

private theorem claimed_eq_true_iff {asked : List Candidate} {path : String} :
    claimed asked path = true ↔ ∃ claim ∈ asked, claim.file.path = path := by
  simp only [claimed, List.any_eq_true, beq_iff_eq]

/-- A candidate at the end is judged by all the others, and does not change how these are. -/
theorem claimsWhere_concat (again : Bool) (front : List Candidate) (last : Candidate) :
    claimsWhere again (front ++ [last])
      = claimsWhere again front ++ if claimed front last.file.path = again then [last] else [] := by
  have ahead : front.zipIdx.filter
      (fun entry => claimed ((front ++ [last]).take entry.2) entry.1.file.path == again)
      = front.zipIdx.filter
          fun entry => claimed (front.take entry.2) entry.1.file.path == again := by
    refine List.filter_congr ?_
    intro entry member
    have within := (List.mem_zipIdx member).2.1
    rw [List.take_append_of_le_length (by omega)]
  rw [claimsWhere, List.zipIdx_append, List.filter_append, List.map_append, ahead, ← claimsWhere]
  by_cases same : claimed front last.file.path = again <;> simp [same]

private theorem firstClaims_concat (front : List Candidate) (last : Candidate) :
    firstClaims (front ++ [last])
      = firstClaims front ++ if claimed front last.file.path = false then [last] else [] :=
  claimsWhere_concat false front last

private theorem repeatedClaims_concat (front : List Candidate) (last : Candidate) :
    repeatedClaims (front ++ [last])
      = repeatedClaims front ++ if claimed front last.file.path = true then [last] else [] :=
  claimsWhere_concat true front last

private theorem claimsWhere_subset (again : Bool) (asked : List Candidate) :
    claimsWhere again asked ⊆ asked := by
  intro claim member
  obtain ⟨entry, found, rfl⟩ := List.mem_map.mp member
  exact List.fst_mem_of_mem_zipIdx (List.mem_filter.mp found).1

/-- **Every path has a first claim.** -/
theorem exists_firstClaim {asked : List Candidate} {path : String}
    (isClaimed : claimed asked path = true) :
    ∃ claim ∈ firstClaims asked, claim.file.path = path := by
  induction asked using List.reverseRecOn with
  | nil => cases isClaimed
  | append_singleton front last inductionHypothesis =>
      rw [firstClaims_concat]
      by_cases earlier : claimed front path = true
      · obtain ⟨claim, member, isPath⟩ := inductionHypothesis earlier
        exact ⟨claim, List.mem_append_left _ member, isPath⟩
      · obtain ⟨claim, member, rfl⟩ := claimed_eq_true_iff.mp isClaimed
        rcases List.mem_append.mp member with inFront | isLast
        · exact absurd (claimed_eq_true_iff.mpr ⟨claim, inFront, rfl⟩) earlier
        · obtain rfl := List.mem_singleton.mp isLast
          rw [if_pos (by simpa using earlier)]
          exact ⟨claim, by simp, rfl⟩

/-- A repeated claim stands behind a first one for the same path. -/
theorem exists_firstClaim_ahead {asked : List Candidate} {claim : Candidate}
    (again : claim ∈ repeatedClaims asked) :
    ∃ kept ∈ firstClaims asked, kept.file.path = claim.file.path
      ∧ [kept, claim].Sublist asked := by
  induction asked using List.reverseRecOn with
  | nil => cases again
  | append_singleton front last inductionHypothesis =>
      rw [repeatedClaims_concat] at again
      have longer : firstClaims front ⊆ firstClaims (front ++ [last]) := by
        rw [firstClaims_concat]
        exact List.subset_append_left _ _
      rcases List.mem_append.mp again with inFront | isLast
      · obtain ⟨kept, isFirst, samePath, order⟩ := inductionHypothesis inFront
        exact ⟨kept, longer isFirst, samePath, order.trans (List.sublist_append_left _ _)⟩
      · split at isLast
        · next isClaimed =>
            obtain rfl := List.mem_singleton.mp isLast
            obtain ⟨kept, isFirst, samePath⟩ := exists_firstClaim isClaimed
            have inFront := claimsWhere_subset false front isFirst
            exact ⟨kept, longer isFirst, samePath,
              (List.singleton_sublist.mpr inFront).append (List.Sublist.refl [claim])⟩
        · cases isLast

private theorem firstClaims_append_repeatedClaims_perm (asked : List Candidate) :
    (firstClaims asked ++ repeatedClaims asked).Perm asked := by
  induction asked using List.reverseRecOn with
  | nil => exact List.Perm.refl _
  | append_singleton front last inductionHypothesis =>
      rw [firstClaims_concat, repeatedClaims_concat]
      cases claimed front last.file.path with
      | true =>
          rw [if_neg (by simp), if_pos rfl, List.append_nil, ← List.append_assoc]
          exact inductionHypothesis.append_right [last]
      | false =>
          rw [if_pos rfl, if_neg (by simp), List.append_nil, List.append_assoc]
          have moved : ([last] ++ repeatedClaims front).Perm (repeatedClaims front ++ [last]) :=
            List.perm_append_comm
          refine (moved.append_left (firstClaims front)).trans ?_
          rw [← List.append_assoc]
          exact inductionHypothesis.append_right [last]

/-! ## Selecting -/

/-- **Selecting keeps the first claims and reports the repeated ones.** -/
theorem select_eq (asked : List Candidate) :
    select asked = ⟨(firstClaims asked).map Candidate.file, (repeatedClaims asked).map refusal⟩ := by
  induction asked using List.reverseRecOn with
  | nil => rfl
  | append_singleton front last inductionHypothesis =>
      have isTaken : (select front).takes last.file.path = claimed front last.file.path := by
        rw [inductionHypothesis, Bool.eq_iff_iff, Selection.takes, List.any_map,
          claimed_eq_true_iff, List.any_eq_true]
        constructor
        · rintro ⟨claim, isFirst, samePath⟩
          exact ⟨claim, claimsWhere_subset false front isFirst, beq_iff_eq.mp samePath⟩
        · intro isClaimed
          obtain ⟨claim, isFirst, samePath⟩ :=
            exists_firstClaim (claimed_eq_true_iff.mpr isClaimed)
          exact ⟨claim, isFirst, beq_iff_eq.mpr samePath⟩
      have step : select (front ++ [last]) = (select front).add last := List.foldl_concat ..
      rw [step, Selection.add, isTaken, inductionHypothesis, firstClaims_concat,
        repeatedClaims_concat]
      cases claimed front last.file.path <;> simp [refusal]

private theorem Selection.add_files_congr {left right : Selection} (same : left.files = right.files)
    (claim : Candidate) : (left.add claim).files = (right.add claim).files := by
  have alike : left.takes claim.file.path = right.takes claim.file.path := by
    rw [takes, takes, same]
  unfold add
  rw [alike]
  split
  · exact same
  · rw [same]

private theorem Selection.foldl_files_congr {left right : Selection} (same : left.files = right.files)
    (asked : List Candidate) :
    (asked.foldl add left).files = (asked.foldl add right).files := by
  induction asked generalizing left right with
  | nil => exact same
  | cons claim rest inductionHypothesis => exact inductionHypothesis (add_files_congr same claim)

/-- **Turning a candidate away changes no file:** the others come out as if it had not been
there. -/
theorem select_files_without {before after : List Candidate} {refused : Candidate}
    (isClaimed : claimed before refused.file.path = true) :
    (select (before ++ refused :: after)).files = (select (before ++ after)).files := by
  have taken : (select before).takes refused.file.path = true := by
    obtain ⟨claim, isFirst, samePath⟩ := exists_firstClaim isClaimed
    rw [select_eq, Selection.takes, List.any_eq_true]
    exact ⟨claim.file, List.mem_map_of_mem isFirst, beq_iff_eq.mpr samePath⟩
  have unchanged : ((select before).add refused).files = (select before).files := by
    rw [Selection.add, if_pos taken]
  rw [select, List.foldl_append, List.foldl_cons, select, List.foldl_append]
  exact Selection.foldl_files_congr unchanged after

private theorem file?_of_mem_files {document : Document} {options : Options} {file : GeneratedFile}
    (member : file ∈ (generate document options).files) :
    (generate document options).file? file.path = some file := by
  refine find?_eq_some_of_unique member (beq_self_eq_true _) ?_
  intro other otherMember samePath
  exact List.inj_on_of_nodup_map (generate_paths_nodup document options) otherMember member
    (beq_iff_eq.mp samePath)

/-- **The first claimant of a path is kept, every other one is reported.** Files are the first
claims among the candidates, in order, under different paths that lead to them; behind the
reports on blocks without a path comes one error for each repeated claim. A candidate that is
turned away, be it the file of a group, takes no other file with it. -/
theorem files_are_first_claims (document : Document) (options : Options) :
    (generate document options).files = (firstClaims (candidates document)).map Candidate.file
      ∧ ((generate document options).files.map GeneratedFile.path).Nodup
      ∧ (generate document options).files.map
            (fun file => (generate document options).file? file.path)
          = (generate document options).files.map some
      ∧ (generate document options).diagnostics
          = unresolvedReports document ++ (repeatedClaims (candidates document)).map refusal
      ∧ ((repeatedClaims (candidates document)).map refusal).all Diagnostic.isError = true
      ∧ (firstClaims (candidates document) ++ repeatedClaims (candidates document)).Perm
          (candidates document)
      ∧ ∀ before refused after, candidates document = before ++ refused :: after →
          claimed before refused.file.path = true →
          (generate document options).files = (select (before ++ after)).files := by
  have isSelection := select_eq (candidates document)
  have files : (generate document options).files = (select (candidates document)).files := rfl
  refine ⟨?_, generate_paths_nodup document options, ?_, ?_, ?_,
    firstClaims_append_repeatedClaims_perm _, ?_⟩
  · rw [files, isSelection]
  · exact List.map_congr_left fun file member => file?_of_mem_files member
  · show unresolvedReports document ++ (select (candidates document)).diagnostics = _
    rw [isSelection]
  · rw [List.all_map, List.all_eq_true]
    exact fun _ _ => rfl
  · intro before refused after isCandidates isClaimed
    rw [files, isCandidates]
    exact select_files_without isClaimed

def lineBlock (start : Nat) (code : String) (settings : Directive.Settings) : CodeBlock :=
  { language := "ts", code := code, span := ⟨start, start + 9⟩, range := default
    codeRange := default, indents := [0], settingsRange := none, settings := some settings }

/-- The block that names the file which a later block adds. -/
def overtakenBlock : CodeBlock :=
  lineBlock 10 "B" { file := some "a.ts.d.ts", additionalFiles := [⟨".map", "{}"⟩] }

/-- The block that goes on with the first file and adds another one. -/
def overtakingBlock : CodeBlock :=
  lineBlock 20 "C" { file := some "a.ts", additionalFiles := [⟨".d.ts", "decl"⟩] }

def interleavedDocument : Document :=
  { sourcePath := "doc.md"
    nodes :=
      [ .code (lineBlock 0 "A" { file := some "a.ts" })
      , .code overtakenBlock
      , .code overtakingBlock ] }

/-- The file of the second group is turned away; what its block adds is still there. -/
theorem files_are_first_claims_interleaved :
    (candidates interleavedDocument)[2]?
        = some ⟨groupFile none ⟨"a.ts.d.ts", overtakenBlock, []⟩, overtakenBlock⟩
      ∧ (generate interleavedDocument {}).files
          = (select ((candidates interleavedDocument).eraseIdx 2)).files
      ∧ (generate interleavedDocument {}).files.map GeneratedFile.path
          = ["a.ts", "a.ts.d.ts", "a.ts.d.ts.map"] := by
  obtain ⟨isFiles, -, -, -, -, -, without⟩ := files_are_first_claims interleavedDocument {}
  refine ⟨by decide +kernel, ?_, ?_⟩
  · exact without ((candidates interleavedDocument).take 2)
      ⟨groupFile none ⟨"a.ts.d.ts", overtakenBlock, []⟩, overtakenBlock⟩
      ((candidates interleavedDocument).drop 3) (by decide +kernel) (by decide +kernel)
  · rw [isFiles]
    decide +kernel

/-! ## Claims in the order of the document -/

/-- `first` does not come after `second`: from its place on, `second` is still to come. -/
def NotAfter (blocks : List CodeBlock) (first second : CodeBlock) : Prop :=
  second ∈ blocks.drop (blocks.idxOf first)

instance (blocks : List CodeBlock) (first second : CodeBlock) :
    Decidable (NotAfter blocks first second) :=
  inferInstanceAs (Decidable (_ ∈ _))

private theorem notAfter_of_places {blocks : List CodeBlock} {first second : CodeBlock} {i j : Nat}
    (isFirst : blocks[i]? = some first) (isSecond : blocks[j]? = some second) (ordered : i ≤ j) :
    NotAfter blocks first second := by
  obtain ⟨within, isFirst⟩ := List.getElem?_eq_some_iff.mp isFirst
  have early : blocks.idxOf first ≤ i := by
    by_contra later
    have other := List.not_of_lt_findIdx (Nat.lt_of_not_le later)
    rw [isFirst, beq_self_eq_true] at other
    cases other
  refine List.mem_of_getElem? (i := j - blocks.idxOf first) ?_
  rw [List.getElem?_drop, Nat.add_sub_cancel' (Nat.le_trans early ordered), isSecond]

private theorem pairwise_notAfter (blocks : List CodeBlock) : blocks.Pairwise (NotAfter blocks) := by
  rw [List.pairwise_iff_getElem]
  intro i j isPlace isLater ordered
  exact notAfter_of_places (List.getElem?_eq_getElem isPlace) (List.getElem?_eq_getElem isLater)
    (Nat.le_of_lt ordered)

def firstPlace (placed : List ResolvedBlock) (path : String) : Nat :=
  placed.findIdx fun entry => entry.path = some path

private theorem firstPlace_lt_iff {placed : List ResolvedBlock} {path : String} :
    firstPlace placed path < placed.length ↔ path ∈ placed.filterMap ResolvedBlock.path := by
  rw [firstPlace, List.findIdx_lt_length, List.mem_filterMap]
  simp only [decide_eq_true_eq]

private theorem firstPlace_le {placed : List ResolvedBlock} {path : String} {block : CodeBlock} {i : Nat}
    (isPlaced : placed[i]? = some ⟨block, some path⟩) : firstPlace placed path ≤ i := by
  obtain ⟨within, isEntry⟩ := List.getElem?_eq_some_iff.mp isPlaced
  by_contra later
  have other := List.not_of_lt_findIdx (Nat.lt_of_not_le later)
  rw [isEntry] at other
  simp at other

/-- A path that is there keeps its first place when blocks follow. -/
theorem firstPlace_append {front : List ResolvedBlock} {path : String}
    (known : path ∈ front.filterMap ResolvedBlock.path) (rest : List ResolvedBlock) :
    firstPlace (front ++ rest) path = firstPlace front path := by
  rw [firstPlace, List.findIdx_append, ← firstPlace, if_pos (firstPlace_lt_iff.mpr known)]

/-- **Groups come where their first blocks stand.** -/
theorem foldl_addResolved_firstPlaces (placed : List ResolvedBlock) :
    ((placed.foldl addResolved []).map FileGroup.path).Pairwise fun earlier later =>
      firstPlace placed earlier < firstPlace placed later := by
  rw [foldl_addResolved_paths]
  induction placed using List.reverseRecOn with
  | nil => exact List.Pairwise.nil
  | append_singleton front entry inductionHypothesis =>
      have kept : ∀ {path : String}, path ∈ (front.filterMap ResolvedBlock.path).eraseDups →
          firstPlace (front ++ [entry]) path = firstPlace front path :=
        fun member => firstPlace_append (List.mem_eraseDups.mp member) [entry]
      have ordered : (front.filterMap ResolvedBlock.path).eraseDups.Pairwise
          fun earlier later => firstPlace (front ++ [entry]) earlier
            < firstPlace (front ++ [entry]) later := by
        refine inductionHypothesis.imp_of_mem ?_
        intro earlier later isEarlier isLater before
        rwa [kept isEarlier, kept isLater]
      obtain ⟨block, path⟩ := entry
      rw [List.filterMap_append]
      cases path with
      | none => rwa [List.filterMap_cons_none rfl, List.filterMap_nil, List.append_nil]
      | some path =>
          have onePath : [(⟨block, some path⟩ : ResolvedBlock)].filterMap ResolvedBlock.path
              = [path] := rfl
          rw [onePath, eraseDups_concat]
          split
          · exact ordered
          · next unknown =>
              refine List.pairwise_append.mpr ⟨ordered, List.pairwise_singleton _ _, ?_⟩
              intro earlier isEarlier later isLater
              rw [List.mem_singleton.mp isLater, kept isEarlier]
              have before := firstPlace_lt_iff.mpr (List.mem_eraseDups.mp isEarlier)
              have behind : ¬ firstPlace front path < front.length :=
                fun found => unknown (firstPlace_lt_iff.mp found)
              rw [firstPlace, firstPlace, List.findIdx_append, ← firstPlace, ← firstPlace,
                if_neg behind]
              exact Nat.lt_of_lt_of_le before (Nat.le_add_left _ _)

section Order

variable {document : Document}

private theorem participants_getElem? {i : Nat} {entry : ResolvedBlock}
    (isPlaced : (resolvedBlocks document)[i]? = some entry) :
    (participants document)[i]? = some entry.block := by
  have isBlocks := resolveFrom_blocks none (participants document)
  rw [← isBlocks, List.getElem?_map, ← resolvedBlocks, isPlaced]
  rfl

/-- The first block of a group stands at the first place of its path. -/
theorem first_at_firstPlace {group : FileGroup} (grouped : group ∈ fileGroups document) :
    (participants document)[firstPlace (resolvedBlocks document) group.path]?
      = some group.first := by
  have isBlocks := foldl_addResolved_blocks (resolvedBlocks document) group grouped
  have isHead := congrArg List.head? isBlocks
  rw [placedAt, List.head?_map, List.head?_filter] at isHead
  obtain ⟨entry, found, isFirst⟩ := Option.map_eq_some_iff.mp isHead.symm
  rw [List.find?_eq_getElem?_findIdx] at found
  rw [← isFirst]
  exact participants_getElem? found

/-- The first block of a group does not come after the blocks of a group that is not ahead of
it. -/
theorem first_notAfter {group other : FileGroup} (grouped : group ∈ fileGroups document)
    (otherGrouped : other ∈ fileGroups document)
    (ordered : firstPlace (resolvedBlocks document) group.path
      ≤ firstPlace (resolvedBlocks document) other.path)
    {block : CodeBlock} (member : block ∈ other.blocks) :
    NotAfter (participants document) group.first block := by
  have resolved := (exists_fileGroup_iff document other.path block).mp
    ⟨other, otherGrouped, rfl, member⟩
  obtain ⟨place, isPlaced⟩ := List.mem_iff_getElem?.mp resolved
  exact notAfter_of_places (first_at_firstPlace grouped) (participants_getElem? isPlaced)
    (Nat.le_trans ordered (firstPlace_le isPlaced))

private theorem requester_of_mem_blockCandidates {path : String} {block : CodeBlock} {claim : Candidate}
    (member : claim ∈ blockCandidates path block) : claim.requester = block := by
  obtain ⟨extra, -, rfl⟩ := List.mem_map.mp member
  rfl

private theorem requester_mem_blocks {group : FileGroup} {claim : Candidate}
    (member : claim ∈ groupCandidates document.config? group) : claim.requester ∈ group.blocks := by
  rcases List.mem_cons.mp member with rfl | additional
  · exact List.mem_cons_self
  · obtain ⟨block, isBlock, inBlock⟩ := List.mem_flatMap.mp additional
    rwa [requester_of_mem_blockCandidates inBlock]

/-- Within one group candidates come in the order of the blocks that ask for them. -/
theorem groupCandidates_ordered {group : FileGroup} (grouped : group ∈ fileGroups document) :
    (groupCandidates document.config? group).Pairwise fun earlier later =>
      NotAfter (participants document) earlier.requester later.requester := by
  have isBlocks := resolveFrom_blocks none (participants document)
  have within := fileGroups_blocks_sublist document group grouped
  rw [resolvedBlocks, isBlocks] at within
  have self : ∀ {block : CodeBlock}, block ∈ group.blocks →
      NotAfter (participants document) block block := by
    intro block member
    obtain ⟨place, isPlace⟩ := List.mem_iff_getElem?.mp (within.subset member)
    exact notAfter_of_places isPlace isPlace (Nat.le_refl _)
  rw [groupCandidates, List.pairwise_cons]
  refine ⟨?_, List.pairwise_flatMap.mpr ⟨?_, ?_⟩⟩
  · intro claim member
    have inGroup : claim ∈ groupCandidates document.config? group := List.mem_cons_of_mem _ member
    exact first_notAfter grouped grouped (Nat.le_refl _) (requester_mem_blocks inGroup)
  · intro block isBlock
    refine List.pairwise_of_forall_mem_list ?_
    intro earlier isEarlier later isLater
    rw [requester_of_mem_blockCandidates isEarlier, requester_of_mem_blockCandidates isLater]
    exact self isBlock
  · refine ((pairwise_notAfter _).sublist within).imp ?_
    intro block next ordered earlier isEarlier later isLater
    rwa [requester_of_mem_blockCandidates isEarlier, requester_of_mem_blockCandidates isLater]

/-- The candidates of a document, each with the group it belongs to. -/
def groupedCandidates (document : Document) : List (FileGroup × Candidate) :=
  (fileGroups document).flatMap fun group =>
    (groupCandidates document.config? group).map fun claim => (group, claim)

private theorem groupedCandidates_claims (document : Document) :
    (groupedCandidates document).map Prod.snd = candidates document := by
  rw [groupedCandidates, List.map_flatMap, candidates]
  simp only [List.map_map, Function.comp_def, List.map_id']

private theorem mem_groupedCandidates {entry : FileGroup × Candidate} :
    entry ∈ groupedCandidates document
      ↔ entry.1 ∈ fileGroups document ∧ entry.2 ∈ groupCandidates document.config? entry.1 := by
  obtain ⟨group, claim⟩ := entry
  simp only [groupedCandidates, List.mem_flatMap, List.mem_map, Prod.mk.injEq]
  constructor
  · rintro ⟨own, grouped, _, member, rfl, rfl⟩
    exact ⟨grouped, member⟩
  · rintro ⟨grouped, member⟩
    exact ⟨group, grouped, claim, member, rfl, rfl⟩

/-- **What candidates keep of the document's order.** The group of an earlier candidate is
opened no later than the block of a later one; within a group the blocks themselves are in
order. -/
theorem groupedCandidates_ordered (document : Document) :
    (groupedCandidates document).Pairwise fun earlier later =>
      NotAfter (participants document) earlier.1.first later.2.requester
        ∧ (earlier.1 = later.1 →
            NotAfter (participants document) earlier.2.requester later.2.requester) := by
  rw [groupedCandidates, List.pairwise_flatMap]
  refine ⟨?_, ?_⟩
  · intro group grouped
    rw [List.pairwise_map]
    refine (groupCandidates_ordered grouped).imp_of_mem ?_
    intro earlier later _ isLater ordered
    exact ⟨first_notAfter grouped grouped (Nat.le_refl _) (requester_mem_blocks isLater),
      fun _ => ordered⟩
  · have places := foldl_addResolved_firstPlaces (resolvedBlocks document)
    rw [List.pairwise_map] at places
    refine places.imp_of_mem ?_
    rintro group other grouped otherGrouped ordered _ isEarlier _ isLater
    obtain ⟨earlier, -, rfl⟩ := List.mem_map.mp isEarlier
    obtain ⟨later, member, rfl⟩ := List.mem_map.mp isLater
    refine ⟨first_notAfter grouped otherGrouped (Nat.le_of_lt ordered)
      (requester_mem_blocks member), ?_⟩
    rintro rfl
    exact absurd ordered (Nat.lt_irrefl _)

end Order

private theorem head?_sourceBlocks {config : Option Directive.Config} {group : FileGroup}
    {claim : Candidate} (member : claim ∈ groupCandidates config group)
    (sourced : claim.file.sourceBlocks ≠ []) :
    claim.file.sourceBlocks.head? = some group.first := by
  rcases List.mem_cons.mp member with rfl | additional
  · rfl
  · obtain ⟨block, -, inBlock⟩ := List.mem_flatMap.mp additional
    obtain ⟨extra, -, rfl⟩ := List.mem_map.mp inBlock
    exact absurd rfl sourced

/-- A report on a path that is taken is about a repeated claim. -/
theorem exists_repeatedClaim {document : Document} {options : Options} {diagnostic : Diagnostic}
    {path : String} (reported : diagnostic ∈ (generate document options).diagnostics)
    (duplicate : diagnostic.problem = .duplicateOutput path) :
    ∃ refused ∈ repeatedClaims (candidates document),
      refused.file.path = path ∧ diagnostic = refusal refused := by
  have isDiagnostics : (generate document options).diagnostics
      = unresolvedReports document ++ (select (candidates document)).diagnostics := rfl
  rw [isDiagnostics, select_eq, unresolvedReports_eq] at reported
  rcases List.mem_append.mp reported with unresolved | refused
  · obtain ⟨block, -, rfl⟩ := List.mem_map.mp unresolved
    cases duplicate
  · obtain ⟨claim, again, rfl⟩ := List.mem_map.mp refused
    exact ⟨claim, again, Problem.duplicateOutput.inj duplicate, rfl⟩

/-- **Whom a duplicate is blamed on.** The file kept at the path belongs to a group that was
opened by a block which does not come after the one reported. If it is the file of that group,
this is its first block. If it is an additional file, its own block does not come after the one
reported either, unless it goes on with a group that is not the one of the block reported. -/
theorem duplicate_blames_opened_group (document : Document) (options : Options)
    (diagnostic : Diagnostic) (path : String)
    (reported : diagnostic ∈ (generate document options).diagnostics)
    (duplicate : diagnostic.problem = .duplicateOutput path) :
    ∃ opened ∈ fileGroups document, ∃ kept ∈ groupCandidates document.config? opened,
    ∃ group ∈ fileGroups document, ∃ refused ∈ groupCandidates document.config? group,
      (generate document options).file? path = some kept.file
        ∧ refused.file.path = path ∧ diagnostic = refusal refused
        ∧ NotAfter (participants document) opened.first refused.requester
        ∧ (kept.file.sourceBlocks ≠ [] → kept.file.sourceBlocks.head? = some opened.first)
        ∧ (opened = group ∨ kept.requester = opened.first →
            NotAfter (participants document) kept.requester refused.requester) := by
  obtain ⟨refused, again, rfl, rfl⟩ := exists_repeatedClaim reported duplicate
  obtain ⟨kept, isFirst, samePath, order⟩ := exists_firstClaim_ahead again
  have isKept : kept.file ∈ (generate document options).files := by
    show kept.file ∈ (select (candidates document)).files
    rw [select_eq]
    exact List.mem_map_of_mem isFirst
  -- The pair of candidates, each with its group again.
  rw [← groupedCandidates_claims, List.sublist_map_iff] at order
  obtain ⟨pair, within, isPair⟩ := order
  obtain ⟨⟨opened, claim⟩, rest, rfl, rfl, isRest⟩ := List.map_eq_cons_iff.mp isPair.symm
  obtain ⟨⟨group, later⟩, none_left, rfl, rfl, isEnd⟩ := List.map_eq_cons_iff.mp isRest
  obtain rfl := List.map_eq_nil_iff.mp isEnd
  have ordered := List.pairwise_pair.mp ((groupedCandidates_ordered document).sublist within)
  obtain ⟨openedGrouped, keptMember⟩ :=
    mem_groupedCandidates.mp (within.subset List.mem_cons_self)
  obtain ⟨grouped, refusedMember⟩ :=
    mem_groupedCandidates.mp (within.subset (List.mem_cons_of_mem _ List.mem_cons_self))
  refine ⟨opened, openedGrouped, claim, keptMember, group, grouped, later, refusedMember, ?_, rfl,
    rfl, ordered.1, head?_sourceBlocks keptMember, ?_⟩
  · rw [← samePath]
    exact file?_of_mem_files isKept
  · rintro (sameGroup | opens)
    · exact ordered.2 sameGroup
    · rw [opens]
      exact ordered.1

/-- The first group is opened ahead of the block that loses its file. -/
theorem duplicate_blames_opened_group_interleaved :
    refusal ⟨groupFile none ⟨"a.ts.d.ts", overtakenBlock, []⟩, overtakenBlock⟩
        ∈ (generate interleavedDocument {}).diagnostics
      ∧ ∃ opened ∈ fileGroups interleavedDocument,
          NotAfter (participants interleavedDocument) opened.first overtakenBlock
          ∧ ∃ kept ∈ groupCandidates none opened,
              (generate interleavedDocument {}).file? "a.ts.d.ts" = some kept.file := by
  have reported : refusal ⟨groupFile none ⟨"a.ts.d.ts", overtakenBlock, []⟩, overtakenBlock⟩
      ∈ (generate interleavedDocument {}).diagnostics := by decide +kernel
  obtain ⟨opened, grouped, kept, member, _, -, refused, -, isKept, -, isRefusal, ordered, -⟩ :=
    duplicate_blames_opened_group interleavedDocument {} _ "a.ts.d.ts" reported rfl
  have sameSpan : refused.requester.span = overtakenBlock.span :=
    (congrArg Diagnostic.span isRefusal).symm
  have fromDocument : refused.requester ∈ participants interleavedDocument :=
    List.mem_of_mem_drop ordered
  have isOvertaken : ∀ block ∈ participants interleavedDocument,
      block.span = overtakenBlock.span → block = overtakenBlock := by decide +kernel
  rw [isOvertaken _ fromDocument sameSpan] at ordered
  exact ⟨reported, opened, grouped, ordered, kept, member, isKept⟩

/-- **A duplicate blamed on a later block.** The block reported loses its file to an additional
file that only a block behind it asks for, and is told that an earlier block generated it. -/
theorem duplicate_blamed_on_later_block :
    ∃ kept ∈ candidates interleavedDocument, ∃ refused ∈ candidates interleavedDocument,
      refusal refused ∈ (generate interleavedDocument {}).diagnostics
        ∧ (refusal refused).problem.message
            = "`a.ts.d.ts` is already generated by an earlier block"
        ∧ (generate interleavedDocument {}).file? "a.ts.d.ts" = some kept.file
        ∧ kept.file.sourceBlocks = []
        ∧ (∀ other ∈ candidates interleavedDocument, other.file = kept.file → other = kept)
        ∧ ¬ NotAfter (participants interleavedDocument) kept.requester refused.requester := by
  refine ⟨⟨additionalFile "a.ts" ⟨".d.ts", "decl"⟩, overtakingBlock⟩, by decide +kernel,
    ⟨groupFile none ⟨"a.ts.d.ts", overtakenBlock, []⟩, overtakenBlock⟩, by decide +kernel, ?_⟩
  decide +kernel

end Tangle.Generate
