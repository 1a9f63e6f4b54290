import WheelBridge.ReportTable

/-!
Push and Pop on the stack of four entries. A balanced block gives back the globals from
before it where all its pushes find an entry free; a push that does not is ignored, and the
pop that belongs to it takes another one's globals.
-/
namespace WheelBridge.Hid

/-- Items whose pushes and pops are paired, with blocks in each other to a depth of `n`. -/
inductive Nested : ℕ → List Item → Prop
  | nil {n : ℕ} : Nested n []
  | item {n : ℕ} {x : Item} (push : x.meaning ≠ .push) (pop : x.meaning ≠ .pop) : Nested n [x]
  | append {n : ℕ} {xs ys : List Item} : Nested n xs → Nested n ys → Nested n (xs ++ ys)
  | block {n : ℕ} {x y : Item} {inner : List Item} (push : x.meaning = .push)
    (pop : y.meaning = .pop) : Nested n inner → Nested (n + 1) (x :: inner ++ [y])

/-- A push, items with blocks in each other to a depth of less than `n`, and its pop. -/
def IsBlock (n : ℕ) (block : List Item) : Prop :=
  ∃ x inner y, block = x :: inner ++ [y] ∧ x.meaning = .push ∧ y.meaning = .pop ∧
    ∃ m, n = m + 1 ∧ Nested m inner

/-- The globals that the items after a block are scanned with are those from before it. -/
def Restores (p : Profile) (before block : List Item) : Prop :=
  ∀ s s', before.foldlM (Scan.item p) Scan.init = some s →
    block.foldlM (Scan.item p) s = some s' → s'.g = s.g

/-- The free entries of the stack are enough for the block. -/
def FindsRoom (p : Profile) (before : List Item) (n : ℕ) : Prop :=
  ∀ s, before.foldlM (Scan.item p) Scan.init = some s → s.depth + n ≤ stackLen

def globalsAfter (s : GlobalState) (xs : List Item) : GlobalState :=
  (xs.map Item.meaning).foldl (GlobalState.apply stackRoom) s

theorem globalsAfter_append (s : GlobalState) (xs ys : List Item) :
    globalsAfter s (xs ++ ys) = globalsAfter (globalsAfter s xs) ys := by
  unfold globalsAfter
  rw [List.map_append, List.foldl_append]

theorem saved_of_other {room : ℕ → Bool} {m : Meaning} (hpush : m ≠ .push) (hpop : m ≠ .pop)
    (s : GlobalState) : (s.apply room m).saved = s.saved := by
  cases m with
  | push => exact absurd rfl hpush
  | pop => exact absurd rfl hpop
  | main | usagePage | reportSize | reportId | reportCount | other => rfl

/-- Between a push that finds room and its pop nothing more is saved or taken. -/
theorem globalsAfter_block {s : GlobalState} {x y : Item} {inner : List Item}
    (hpush : x.meaning = .push) (hpop : y.meaning = .pop) (hroom : s.saved.length < stackLen)
    (hinner : (globalsAfter ⟨s.current, s.current :: s.saved⟩ inner).saved =
      s.current :: s.saved) :
    globalsAfter s (x :: inner ++ [y]) = s := by
  have hpushed : globalsAfter s [x] = ⟨s.current, s.current :: s.saved⟩ := by
    have htrue : stackRoom s.saved.length = true := decide_eq_true hroom
    change s.apply stackRoom x.meaning = _
    rw [hpush, GlobalState.apply, if_pos htrue]
  have hpopped : ∀ s' : GlobalState, s'.saved = s.current :: s.saved →
      globalsAfter s' [y] = s := by
    intro s' hsaved
    change s'.apply stackRoom y.meaning = _
    rw [hpop]
    simp only [GlobalState.apply, hsaved]
  have hsplit : x :: inner ++ [y] = [x] ++ (inner ++ [y]) := rfl
  rw [hsplit, globalsAfter_append, hpushed, globalsAfter_append]
  exact hpopped _ hinner

/-- Where there is room, paired pushes and pops leave what is saved as it was. -/
theorem Nested.saved {n : ℕ} {xs : List Item} (h : Nested n xs) {s : GlobalState}
    (hroom : s.saved.length + n ≤ stackLen) : (globalsAfter s xs).saved = s.saved := by
  induction h generalizing s with
  | nil => rfl
  | item hpush hpop => exact saved_of_other hpush hpop s
  | append _ _ ihx ihy =>
    have hsaved := ihx hroom
    rw [globalsAfter_append, ihy (by rwa [hsaved]), hsaved]
  | block hpush hpop _ ih =>
    have hinner := ih (s := ⟨s.current, s.current :: s.saved⟩)
      (by simp only [List.length_cons]; omega)
    rw [globalsAfter_block hpush hpop (by omega) hinner]

theorem IsBlock.globalsAfter {n : ℕ} {block : List Item} (h : IsBlock n block)
    {s : GlobalState} (hroom : s.saved.length + n ≤ stackLen) : globalsAfter s block = s := by
  obtain ⟨x, inner, y, rfl, hpush, hpop, m, rfl, hinner⟩ := h
  refine globalsAfter_block hpush hpop (by omega) ?_
  exact hinner.saved (by simp only [List.length_cons]; omega)

/-- What the scan is in after items is what their meanings give. -/
theorem Scan.Refines.globals {p : Profile} {s s' : Scan} {t : Summary} {xs : List Item}
    (h : s.Refines t) (hs : xs.foldlM (Scan.item p) s = some s') :
    ∃ t', s'.Refines t' ∧ t'.globals = globalsAfter t.globals xs := by
  have hrel := h.items p xs
  rw [hs] at hrel
  cases ht : t.run p (xs.map Item.meaning) with
  | none =>
    rw [ht] at hrel
    cases hrel
  | some t' =>
    rw [ht] at hrel
    cases hrel with
    | some hst =>
      refine ⟨t', hst, ?_⟩
      rw [Summary.run_eq_some ht, Summary.globals_foldl]
      rfl

/-- A balanced block that finds room restores the globals, whatever it contains and whatever
came before it, and the items after it are scanned with them. -/
theorem block_restores (p : Profile) {before block : List Item} {n : ℕ}
    (hblock : IsBlock n block) (hroom : FindsRoom p before n) : Restores p before block := by
  intro s s' hs hs'
  obtain ⟨t, hst, -⟩ := Scan.Refines.init.globals hs
  obtain ⟨t', hst', hglobals⟩ := hst.globals hs'
  have hdepth := hroom s hs
  rw [hst.depth] at hdepth
  rw [hblock.globalsAfter hdepth] at hglobals
  rw [hst'.g, hst.g, hglobals]

def pushItem : Item := .ofShort 0xa4 [] rfl
def popItem : Item := .ofShort 0xb4 [] rfl

def desktopBlock : List Item := [pushItem, desktopItem, popItem]

theorem isBlock_desktopBlock : IsBlock 1 desktopBlock :=
  ⟨pushItem, [desktopItem], popItem, rfl, by decide, by decide, 0, rfl,
    .item (by decide) (by decide)⟩

/-- A block at the second level, with an auth page in effect before it. -/
theorem auth_page_restored : Restores .dev [pushItem, authItem] desktopBlock := by
  refine block_restores .dev isBlock_desktopBlock ?_
  intro s hs
  have hdepth : ([pushItem, authItem].foldlM (Scan.item .dev) Scan.init).map Scan.depth =
      some 1 := by decide +kernel
  rw [hs, Option.map_some, Option.some.injEq] at hdepth
  rw [hdepth]
  decide

def fourPushes : List Item := [pushItem, pushItem, pushItem, pushItem, authItem]

/-- Four pushes, then page 0xFFF0: a fifth push is ignored, and its pop takes the page of the
fourth. -/
theorem fifth_push_ignored :
    ¬ ∀ p n before block, IsBlock n block → Restores p before block := by
  intro h
  have hbefore : (fourPushes.foldlM (Scan.item .release) Scan.init).map
      (fun s => s.g.usagePage) = some 0xfff0 := by decide +kernel
  have hafter : ((fourPushes ++ desktopBlock).foldlM (Scan.item .release) Scan.init).map
      (fun s => s.g.usagePage) = some 0 := by decide +kernel
  obtain ⟨s, hs, hpage⟩ := Option.map_eq_some_iff.mp hbefore
  obtain ⟨s', hs', hpage'⟩ := Option.map_eq_some_iff.mp hafter
  rw [List.foldlM_append, hs] at hs'
  have hsame := h .release 1 fourPushes desktopBlock isBlock_desktopBlock s s' hs hs'
  rw [hsame, hpage] at hpage'
  exact absurd hpage' (by decide)

end WheelBridge.Hid
