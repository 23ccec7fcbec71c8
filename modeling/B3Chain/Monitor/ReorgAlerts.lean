import Mathlib

/-!
# Reorganisation alerts of the attack monitor

At each poll the monitor reads the active tip and, when it has changed, walks
the headers of both branches to their common ancestor.  The walk gives up at
the first call that fails and after 1024 blocks of a branch, and the tip is
remembered all the same, so the reorganisation is not looked at again.  If no
header call of the poll fails, at most 1023 blocks were connected and the alert
is not held back as a repetition, a reorganisation of at most 1000 blocks is
reported with its depth.
-/

namespace B3Chain.Monitor

universe u v

/-! ## Block trees -/

/-- The blocks a node knows, with what `getblockheader` tells of them. -/
structure BlockTree (Hash : Type u) where
  genesis : Hash
  previous : Hash → Option Hash
  height : Hash → Nat
  root : ∀ block, previous block = none ↔ block = genesis
  height_genesis : height genesis = 0
  height_child : ∀ block parent, previous block = some parent →
    height block = height parent + 1

variable {Hash : Type u} {Short : Type v}

namespace BlockTree

variable (tree : BlockTree Hash)

/-- The block so many steps back, or the first block. -/
def back : Nat → Hash → Hash
  | 0, block => block
  | steps + 1, block =>
    match tree.previous block with
    | none => block
    | some parent => back steps parent

/-- A block and its ancestors, the block first. -/
def chain (block : Hash) : List Hash :=
  (List.range (tree.height block + 1)).map fun steps => tree.back steps block

/-- The ancestor of a block at a height. -/
def ancestor (block : Hash) (height : Nat) : Hash :=
  tree.back (tree.height block - height) block

variable {tree}

theorem exists_previous {block : Hash} (positive : 0 < tree.height block) :
    ∃ parent, tree.previous block = some parent := by
  cases found : tree.previous block with
  | none =>
    rw [(tree.root block).mp found, tree.height_genesis] at positive
    cases positive
  | some parent => exact ⟨parent, rfl⟩

theorem height_back (steps : Nat) (block : Hash) :
    tree.height (tree.back steps block) = tree.height block - steps := by
  induction steps generalizing block with
  | zero => rfl
  | succ steps induction =>
    rw [back]
    cases found : tree.previous block with
    | none =>
      rw [(tree.root block).mp found, tree.height_genesis, Nat.zero_sub]
    | some parent =>
      rw [induction, tree.height_child block parent found]
      omega

theorem back_add (steps more : Nat) (block : Hash) :
    tree.back (steps + more) block = tree.back more (tree.back steps block) := by
  induction steps generalizing block with
  | zero => rw [Nat.zero_add, back]
  | succ steps induction =>
    rw [Nat.add_right_comm, back, back]
    cases found : tree.previous block with
    | none =>
      cases more with
      | zero => rfl
      | succ more => rw [back, found]
    | some parent => exact induction parent

theorem ancestor_self (block : Hash) :
    tree.ancestor block (tree.height block) = block := by
  rw [ancestor, Nat.sub_self, back]

theorem ancestor_previous {block parent : Hash} {height : Nat}
    (found : tree.previous block = some parent)
    (below : height ≤ tree.height parent) :
    tree.ancestor block height = tree.ancestor parent height := by
  rw [ancestor, ancestor, tree.height_child block parent found,
    Nat.succ_sub below, back, found]

/-- Ancestors of the same block below it are the same. -/
theorem ancestor_ancestor {block : Hash} {low high : Nat}
    (ordered : low ≤ high) (within : high ≤ tree.height block) :
    tree.ancestor (tree.ancestor block high) low =
      tree.ancestor block low := by
  rw [ancestor, ancestor, height_back, ancestor, ← back_add]
  congr 1
  omega

theorem ancestor_zero (block : Hash) :
    tree.ancestor block 0 = tree.genesis := by
  have height : tree.height (tree.ancestor block 0) = 0 := by
    rw [ancestor, height_back, Nat.sub_zero, Nat.sub_self]
  by_contra other
  cases found : tree.previous (tree.ancestor block 0) with
  | none => exact other ((tree.root _).mp found)
  | some parent =>
    rw [tree.height_child _ parent found] at height
    cases height

theorem mem_chain_iff {block other : Hash} :
    other ∈ tree.chain block ↔
      tree.height other ≤ tree.height block ∧
        tree.ancestor block (tree.height other) = other := by
  rw [chain, List.mem_map]
  constructor
  · rintro ⟨steps, within, rfl⟩
    rw [List.mem_range] at within
    rw [ancestor, height_back]
    refine ⟨Nat.sub_le _ _, ?_⟩
    rw [show tree.height block - (tree.height block - steps) = steps by
      omega]
  · rintro ⟨_, same⟩
    exact ⟨_, List.mem_range.mpr (by omega), same⟩

variable [DecidableEq Hash]

/-- The number of blocks of one chain that are not in another. -/
def disconnected (tree : BlockTree Hash) (block other : Hash) : Nat :=
  ((tree.chain block).filter (· ∉ tree.chain other)).length

/-- The greatest height at which two chains have the same block. -/
def fork (tree : BlockTree Hash) (block other : Hash) : Nat :=
  Nat.findGreatest
    (fun height => tree.ancestor block height = tree.ancestor other height)
    (min (tree.height block) (tree.height other))

theorem fork_comm (tree : BlockTree Hash) (block other : Hash) :
    tree.fork block other = tree.fork other block := by
  rw [fork, fork, min_comm]
  simp only [eq_comm]

theorem fork_le (tree : BlockTree Hash) (block other : Hash) :
    tree.fork block other ≤ tree.height block ∧
      tree.fork block other ≤ tree.height other :=
  le_min_iff.mp (Nat.findGreatest_le _)

theorem ancestor_fork (tree : BlockTree Hash) (block other : Hash) :
    tree.ancestor block (tree.fork block other) =
      tree.ancestor other (tree.fork block other) := by
  refine Nat.findGreatest_spec (P := fun height =>
    tree.ancestor block height = tree.ancestor other height)
    (Nat.zero_le _) ?_
  rw [ancestor_zero, ancestor_zero]

/-- The chains agree up to the fork and nowhere above it. -/
theorem ancestor_eq_iff {block other : Hash} {height : Nat}
    (within : height ≤ tree.height block ∧ height ≤ tree.height other) :
    tree.ancestor block height = tree.ancestor other height ↔
      height ≤ tree.fork block other := by
  constructor
  · exact Nat.le_findGreatest (P := fun height =>
      tree.ancestor block height = tree.ancestor other height)
      (le_min within.1 within.2)
  · intro below
    obtain ⟨first, second⟩ := fork_le tree block other
    rw [← ancestor_ancestor below first, ancestor_fork,
      ancestor_ancestor below second]

/-- The blocks above the fork are those that are not in the other chain. -/
theorem disconnected_eq (tree : BlockTree Hash) (block other : Hash) :
    tree.disconnected block other =
      tree.height block - tree.fork block other := by
  have bounds := fork_le tree block other
  have member (steps : Nat) (within : steps ≤ tree.height block) :
      tree.back steps block ∈ tree.chain other ↔
        tree.height block - tree.fork block other ≤ steps := by
    have place : tree.back steps block =
        tree.ancestor block (tree.height block - steps) := by
      rw [ancestor]
      congr 1
      omega
    rw [mem_chain_iff, height_back]
    by_cases low : tree.height block - steps ≤ tree.height other
    · rw [place, eq_comm, ancestor_eq_iff ⟨Nat.sub_le _ _, low⟩]
      omega
    · exact iff_of_false (fun both => low both.1) (by omega)
  have parts : tree.chain block =
      (List.range (tree.height block - tree.fork block other)).map
          (tree.back · block) ++
        ((List.range (tree.fork block other + 1)).map
          (tree.height block - tree.fork block other + ·)).map
            (tree.back · block) := by
    rw [chain, ← List.map_append, ← List.range_add]
    congr 2
    omega
  rw [disconnected, parts, List.filter_append, List.filter_eq_self.mpr,
    List.filter_eq_nil_iff.mpr, List.append_nil, List.length_map,
    List.length_range]
  · intro found within
    simp only [List.mem_map, List.mem_range] at within
    obtain ⟨_, ⟨more, below, rfl⟩, rfl⟩ := within
    rw [decide_eq_true_iff, not_not, member _ (by omega)]
    omega
  · intro found within
    simp only [List.mem_map, List.mem_range] at within
    obtain ⟨steps, below, rfl⟩ := within
    rw [decide_eq_true_iff, member _ (by omega)]
    omega

theorem disconnected_self (tree : BlockTree Hash) (block : Hash) :
    tree.disconnected block block = 0 := by
  have top : tree.height block ≤ tree.fork block block :=
    (ancestor_eq_iff ⟨le_refl _, le_refl _⟩).mp rfl
  rw [disconnected_eq]
  omega

end BlockTree

/-! ## The walk to the common ancestor -/

variable [DecidableEq Hash] [DecidableEq Short]

/-- The rounds of each loop of `_common_ancestor_height`. -/
def maxHops : Nat := 1024

/-- The first loop: the blocks of the other branch by their heights.  Calls are
numbered, and `none` is a call that fails. -/
def mapBranch (tree : BlockTree Hash) (fails : Nat → Bool) :
    Nat → Nat → Hash → List (Nat × Hash) → Option (List (Nat × Hash) × Nat)
  | 0, call, _, seen => some (seen, call)
  | rounds + 1, call, other, seen =>
    if fails call then none
    else
      match tree.previous other with
      | none => some ((tree.height other, other) :: seen, call + 1)
      | some parent =>
        mapBranch tree fails rounds (call + 1) parent
          ((tree.height other, other) :: seen)

/-- The second loop: back along the first branch. -/
def walkBack (tree : BlockTree Hash) (fails : Nat → Bool)
    (seen : List (Nat × Hash)) : Nat → Nat → Hash → Nat → Option Nat
  | 0, _, _, _ => none
  | rounds + 1, call, current, height =>
    if seen.lookup height = some current then some height
    else if fails call then none
    else
      match tree.previous current with
      | none => none
      | some parent =>
        if tree.height current = 0 then none
        else
          walkBack tree fails seen rounds (call + 1) parent
            (tree.height current - 1)

/-- `_common_ancestor_height`. -/
def commonAncestorHeight (tree : BlockTree Hash) (fails : Nat → Bool)
    (newTip prevTip : Hash) : Option Nat :=
  if fails 0 ∨ fails 1 then none
  else
    let current :=
      if tree.height newTip ≥ tree.height prevTip then newTip else prevTip
    let other := if current = newTip then prevTip else newTip
    (mapBranch tree fails maxHops 2 other []).bind fun mapped =>
      walkBack tree fails mapped.1 maxHops mapped.2 current
        (max (tree.height newTip) (tree.height prevTip))

omit [DecidableEq Hash] in
theorem mapBranch_eq {tree : BlockTree Hash} {fails : Nat → Bool}
    (succeed : ∀ call, fails call = false) (rounds call : Nat)
    (other : Hash) (seen : List (Nat × Hash)) :
    ∃ mapped, mapBranch tree fails rounds call other seen = some mapped ∧
      ∀ height, mapped.1.lookup height =
        if height ≤ tree.height other ∧ tree.height other < height + rounds
        then some (tree.ancestor other height) else seen.lookup height := by
  induction rounds generalizing call other seen with
  | zero =>
    refine ⟨(seen, call), rfl, fun height => ?_⟩
    rw [if_neg (by omega)]
  | succ rounds induction =>
    rw [mapBranch, if_neg (by rw [succeed]; exact Bool.false_ne_true)]
    cases found : tree.previous other with
    | none =>
      refine ⟨_, rfl, fun height => ?_⟩
      have bottom : tree.height other = 0 := by
        rw [(tree.root other).mp found, tree.height_genesis]
      rw [List.lookup_cons]
      by_cases same : height = tree.height other
      · rw [if_pos (by omega), same, beq_self_eq_true,
          BlockTree.ancestor_self]
      · rw [if_neg (by omega), beq_false_of_ne same]
    | some parent =>
      obtain ⟨mapped, result, lookup⟩ := induction (call + 1) parent
        ((tree.height other, other) :: seen)
      have above := tree.height_child other parent found
      refine ⟨mapped, result, fun height => ?_⟩
      rw [lookup, List.lookup_cons]
      by_cases same : height = tree.height other
      · rw [if_neg (by omega), if_pos (by omega), same, beq_self_eq_true,
          BlockTree.ancestor_self]
      · rw [beq_false_of_ne same]
        by_cases within : height ≤ tree.height parent ∧
            tree.height parent < height + rounds
        · rw [if_pos within, if_pos (by omega),
            BlockTree.ancestor_previous found within.1]
        · rw [if_neg within, if_neg (by omega)]

theorem walkBack_eq {tree : BlockTree Hash} {fails : Nat → Bool}
    {seen : List (Nat × Hash)} (succeed : ∀ call, fails call = false)
    {fork rounds : Nat} (call : Nat) {current : Hash}
    (below : fork ≤ tree.height current)
    (near : tree.height current < fork + rounds)
    (here : seen.lookup fork = some (tree.ancestor current fork))
    (above : ∀ height, fork < height → height ≤ tree.height current →
      seen.lookup height ≠ some (tree.ancestor current height)) :
    walkBack tree fails seen rounds call current (tree.height current) =
      some fork := by
  induction rounds generalizing call current with
  | zero => omega
  | succ rounds induction =>
    rw [walkBack]
    rcases Nat.eq_or_lt_of_le below with same | higher
    · rw [← same, here, same, BlockTree.ancestor_self, if_pos rfl]
    · have apart := above _ higher (le_refl _)
      rw [BlockTree.ancestor_self] at apart
      obtain ⟨parent, found⟩ :=
        BlockTree.exists_previous (Nat.zero_lt_of_lt higher)
      have height := tree.height_child current parent found
      rw [if_neg apart, if_neg (by rw [succeed]; exact Bool.false_ne_true),
        found]
      dsimp only
      rw [if_neg (by omega),
        show tree.height current - 1 = tree.height parent by omega]
      refine induction (call + 1) (by omega) (by omega) ?_ ?_
      · rw [here, BlockTree.ancestor_previous found (by omega)]
      · intro other more within
        rw [← BlockTree.ancestor_previous found within]
        exact above other more (by omega)

/-- A walk back finds the fork if it is near enough. -/
theorem walkBack_fork {tree : BlockTree Hash} {fails : Nat → Bool}
    (succeed : ∀ call, fails call = false) {current other : Hash}
    (near : tree.disconnected current other < maxHops)
    (close : tree.disconnected other current < maxHops) :
    ((mapBranch tree fails maxHops 2 other []).bind fun mapped =>
      walkBack tree fails mapped.1 maxHops mapped.2 current
        (tree.height current)) = some (tree.fork current other) := by
  have bounds := BlockTree.fork_le tree current other
  rw [BlockTree.disconnected_eq] at near close
  rw [BlockTree.fork_comm] at close
  obtain ⟨mapped, result, lookup⟩ :=
    mapBranch_eq succeed maxHops 2 other ([] : List (Nat × Hash))
  rw [result, Option.bind_some]
  refine walkBack_eq succeed mapped.2 bounds.1 (by omega) ?_ ?_
  · rw [lookup, if_pos ⟨bounds.2, by omega⟩, BlockTree.ancestor_fork]
  · intro height more within
    rw [lookup]
    split_ifs with inside
    · intro same
      have agree := (BlockTree.ancestor_eq_iff ⟨within, inside.1⟩).mp
        (Option.some_inj.mp same).symm
      omega
    · exact fun same => Option.some_ne_none _ same.symm

theorem commonAncestorHeight_eq {tree : BlockTree Hash}
    {fails : Nat → Bool} (succeed : ∀ call, fails call = false)
    {newTip prevTip : Hash}
    (near : tree.disconnected newTip prevTip < maxHops)
    (close : tree.disconnected prevTip newTip < maxHops) :
    commonAncestorHeight tree fails newTip prevTip =
      some (tree.fork prevTip newTip) := by
  rw [commonAncestorHeight, if_neg (by rw [succeed, succeed]; simp)]
  dsimp only
  by_cases longer : tree.height newTip ≥ tree.height prevTip
  · rw [if_pos longer, if_pos rfl, max_eq_left longer, BlockTree.fork_comm]
    exact walkBack_fork succeed near close
  · have apart : prevTip ≠ newTip := by
      rintro rfl
      exact longer (le_refl _)
    rw [if_neg longer, if_neg apart,
      max_eq_right (Nat.le_of_not_ge longer)]
    exact walkBack_fork succeed close near

/-! ## The watcher -/

/-- The fields of a `near_reorg_cap` alert. -/
structure ReorgAlert (Hash : Type u) where
  prevTipHash : Hash
  newTipHash : Hash
  prevTipHeight : Nat
  newTipHeight : Nat
  commonAncestor : Nat
  reorgDepth : Int
  nearThreshold : Int
  deriving DecidableEq

/-- The node's tree, the first characters of a hash, and the options. -/
structure WatchSetup (Hash : Type u) (Short : Type v) where
  tree : BlockTree Hash
  short : Hash → Short
  nearReorgThreshold : Int
  window : Int

/-- The remembered tip, when signatures were last emitted, and the alerts. -/
structure Watcher (Hash : Type u) (Short : Type v) where
  lastTip : Option (Hash × Nat)
  lastEmit : List ((Nat × Short) × Int)
  alerts : List (ReorgAlert Hash)

/-- A poll: its time, the tip if it could be read, and the header calls that
fail. -/
structure Poll (Hash : Type u) where
  now : Int
  tip : Option Hash
  fails : Nat → Bool

/-- `detect_near_reorg_cap`. -/
def detectNearReorgCap (prevTip newTip : Hash)
    (newHeight prevHeight : Nat) (common : Option Nat)
    (nearThreshold : Int) : Option (ReorgAlert Hash) :=
  common.bind fun commonAncestor =>
    let reorgDepth : Int := prevHeight - commonAncestor
    if newTip = prevTip ∨ reorgDepth < nearThreshold then none
    else
      some
        { prevTipHash := prevTip, newTipHash := newTip
          prevTipHeight := prevHeight, newTipHeight := newHeight
          commonAncestor, reorgDepth, nearThreshold }

/-- `should_emit`: whether the signature is new, and the table then. -/
def shouldEmit (window : Int) (lastEmit : List ((Nat × Short) × Int))
    (signature : Nat × Short) (now : Int) :
    Bool × List ((Nat × Short) × Int) :=
  match lastEmit.lookup signature with
  | some last =>
    if now - last < window then (false, lastEmit)
    else (true, ((signature, now) ::
      lastEmit.filter (·.1 ≠ signature)).filter (now - ·.2 ≤ window))
  | none => (true, ((signature, now) :: lastEmit).filter (now - ·.2 ≤ window))

/-- `emit_dedup`. -/
def Watcher.emitDedup (setup : WatchSetup Hash Short)
    (watcher : Watcher Hash Short) (alert : ReorgAlert Hash) (now : Int) :
    Watcher Hash Short :=
  let emit := shouldEmit setup.window watcher.lastEmit
    (alert.commonAncestor, setup.short alert.newTipHash) now
  { watcher with
    lastEmit := emit.2
    alerts := if emit.1 then watcher.alerts ++ [alert] else watcher.alerts }

/-- The third detector of `step`; without a tip the poll ends before it. -/
def Watcher.step (setup : WatchSetup Hash Short)
    (watcher : Watcher Hash Short) (poll : Poll Hash) :
    Watcher Hash Short :=
  match poll.tip with
  | none => watcher
  | some newTip =>
    let newHeight := setup.tree.height newTip
    let detected :=
      match watcher.lastTip with
      | none => watcher
      | some (prevTip, prevHeight) =>
        if newTip = prevTip then watcher
        else
          match detectNearReorgCap prevTip newTip newHeight prevHeight
              (commonAncestorHeight setup.tree poll.fails newTip prevTip)
              setup.nearReorgThreshold with
          | none => watcher
          | some alert => watcher.emitDedup setup alert poll.now
    { detected with lastTip := some (newTip, newHeight) }

/-- A monitor that has not polled yet. -/
def Watcher.start : Watcher Hash Short where
  lastTip := none
  lastEmit := []
  alerts := []

theorem Watcher.lastTip_step (setup : WatchSetup Hash Short)
    (watcher : Watcher Hash Short) {poll : Poll Hash} {tip : Hash}
    (read : poll.tip = some tip) :
    (watcher.step setup poll).lastTip =
      some (tip, setup.tree.height tip) := by
  rw [step, read]

/-- Polls that read no tip change nothing. -/
theorem Watcher.foldl_step_unread (setup : WatchSetup Hash Short)
    (watcher : Watcher Hash Short) {polls : List (Poll Hash)}
    (unread : ∀ poll ∈ polls, poll.tip = none) :
    polls.foldl (Watcher.step setup) watcher = watcher := by
  induction polls with
  | nil => rfl
  | cons poll rest induction =>
    have first : watcher.step setup poll = watcher := by
      rw [step, unread poll List.mem_cons_self]
    rw [List.foldl_cons, first]
    exact induction fun other member =>
      unread other (List.mem_cons_of_mem poll member)

/--
Between two polls that read the tip, and no poll between them did, a
reorganisation that disconnected at least the threshold and at most 1000 blocks
is reported with its depth by the second poll, if none of its header calls
fails, at most 1023 blocks were connected and no alert of the same signature
was emitted within the window.
-/
theorem deep_reorg_reported
    (setup : WatchSetup Hash Short) (before failed : List (Poll Hash))
    {first second : Poll Hash} {prevTip newTip : Hash}
    (firstRead : first.tip = some prevTip)
    (unread : ∀ poll ∈ failed, poll.tip = none)
    (secondRead : second.tip = some newTip)
    (deep : setup.nearReorgThreshold ≤
      setup.tree.disconnected prevTip newTip)
    (left : 0 < setup.tree.disconnected prevTip newTip)
    (within : setup.tree.disconnected prevTip newTip ≤ 1000)
    (succeed : ∀ call, second.fails call = false)
    (connected : setup.tree.disconnected newTip prevTip < maxHops)
    (fresh : (shouldEmit setup.window
      ((before ++ first :: failed).foldl (Watcher.step setup)
        Watcher.start).lastEmit
      (setup.tree.fork prevTip newTip, setup.short newTip)
      second.now).1 = true) :
    ∃ alert ∈ ((before ++ first :: failed ++ [second]).foldl
        (Watcher.step setup) Watcher.start).alerts,
      alert.prevTipHash = prevTip ∧ alert.newTipHash = newTip ∧
        alert.reorgDepth = setup.tree.disconnected prevTip newTip := by
  have last : ((before ++ first :: failed).foldl (Watcher.step setup)
      Watcher.start).lastTip = some (prevTip, setup.tree.height prevTip) := by
    rw [List.foldl_append, List.foldl_cons,
      Watcher.foldl_step_unread setup _ unread]
    exact Watcher.lastTip_step setup _ firstRead
  have changed : newTip ≠ prevTip := by
    rintro rfl
    rw [BlockTree.disconnected_self] at left
    cases left
  have depth := BlockTree.disconnected_eq setup.tree prevTip newTip
  have bounds := (BlockTree.fork_le setup.tree prevTip newTip).1
  have detected : detectNearReorgCap prevTip newTip
      (setup.tree.height newTip) (setup.tree.height prevTip)
      (commonAncestorHeight setup.tree second.fails newTip prevTip)
      setup.nearReorgThreshold =
      some
        { prevTipHash := prevTip, newTipHash := newTip
          prevTipHeight := setup.tree.height prevTip
          newTipHeight := setup.tree.height newTip
          commonAncestor := setup.tree.fork prevTip newTip
          reorgDepth := setup.tree.height prevTip -
            setup.tree.fork prevTip newTip
          nearThreshold := setup.nearReorgThreshold } := by
    rw [commonAncestorHeight_eq succeed connected
      (lt_of_le_of_lt within (by decide)), detectNearReorgCap,
      Option.bind_some]
    refine if_neg fun missed => ?_
    rcases missed with same | shallow
    · exact changed same
    · omega
  rw [List.foldl_append, List.foldl_cons, List.foldl_nil]
  generalize (before ++ first :: failed).foldl (Watcher.step setup)
    Watcher.start = watcher at last fresh
  rw [Watcher.step, secondRead, last]
  dsimp only
  rw [if_neg changed, detected]
  dsimp only [Watcher.emitDedup]
  rw [if_pos fresh]
  refine ⟨_, List.mem_append_right _ (List.mem_singleton.mpr rfl), rfl, rfl,
    ?_⟩
  dsimp only
  rw [depth]
  omega

/-- Two blocks on top of the first one. -/
def twoBranches : BlockTree (Fin 3) where
  genesis := 0
  previous block := if block = 0 then none else some 0
  height block := if block = 0 then 0 else 1
  root := by decide
  height_genesis := rfl
  height_child := by decide

/-- A watcher of these blocks that reports every reorganisation. -/
def twoBranchSetup : WatchSetup (Fin 3) (Fin 3) where
  tree := twoBranches
  short := id
  nearReorgThreshold := 1
  window := 3600

/-- A poll that reads a tip and whose header calls succeed. -/
def goodPoll (now : Int) (tip : Fin 3) : Poll (Fin 3) :=
  ⟨now, some tip, fun _ => false⟩

/-- A poll that reads a tip and whose first header call fails. -/
def unluckyPoll (now : Int) (tip : Fin 3) : Poll (Fin 3) :=
  ⟨now, some tip, fun call => call = 0⟩

theorem one_block_reorg_reported :
    ∃ alert ∈ (([] ++ goodPoll 0 1 :: [] ++ [goodPoll 60 2]).foldl
        (Watcher.step twoBranchSetup) Watcher.start).alerts,
      alert.prevTipHash = 1 ∧ alert.newTipHash = 2 ∧
        alert.reorgDepth = ((twoBranches.disconnected 1 2 : Nat) : Int) := by
  have first : (goodPoll 0 1).tip = some 1 := rfl
  have second : (goodPoll 60 2).tip = some 2 := rfl
  exact deep_reorg_reported twoBranchSetup [] [] first
    (fun _ member => absurd member List.not_mem_nil) second (by decide)
    (by decide) (by decide) (fun _ => rfl) (by decide) (by decide)

/-- After a failed call the reorganisation is forgotten. -/
theorem failed_header_call_hides_reorg :
    twoBranches.disconnected 1 2 = 1 ∧
      ([goodPoll 0 1, unluckyPoll 60 2, goodPoll 120 2].foldl
        (Watcher.step twoBranchSetup) Watcher.start).alerts = [] := by
  decide

end B3Chain.Monitor
