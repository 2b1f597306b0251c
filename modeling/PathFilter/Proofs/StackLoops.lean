import PathFilter.Parsing
import PathFilter.Proofs.Reading

namespace PathFilter

def Tight.kind : Tight → EntryKind
  | .not => .not
  | .equals _ => .equals

theorem Tight.separator_notMem_kinds (ts : List Tight) : .separator ∉ ts.map Tight.kind := by
  simp only [List.mem_map, not_exists, not_and]
  intro t _
  cases t <;> exact nofun

/-- The operands that lie on the stack below the one that is waited for. -/
def Tight.operands : Tight → List Expr
  | .not => []
  | .equals k => [k]

/-- Whether a fault lies in the text. The others would be faults of the stacks. -/
def SyntaxFault.ofText : SyntaxFault → Bool
  | .missingOperand => false
  | .bracketAfterCompound => false
  | _ => true

namespace Parsing

theorem popOperand_cons (pos : Nat) (e : Expr) (operands : List Expr) :
    popOperand pos (e :: operands) = .ok (e, operands) := rfl

theorem applyEntry_tight {t : Tight} {entry : Entry} (hkind : entry.kind = t.kind) {e tree : Expr}
    (applied : t.apply e = some tree) (entries : List Entry) (operands : List Expr) :
    applyEntry entry entries (e :: (t.operands ++ operands)) = .ok (entries, tree :: operands) := by
  cases t with
  | not =>
    obtain rfl := Option.some.inj applied
    simp only [applyEntry, hkind, Tight.kind]
    rfl
  | equals k =>
    obtain ⟨key, value, rfl, rfl, rfl⟩ := Tight.apply_equals applied
    simp only [applyEntry, hkind, Tight.kind]
    rfl

/-- Only an equals sign can fail to apply. -/
theorem applyEntry_tight_error {t : Tight} {entry : Entry} (hkind : entry.kind = t.kind) {e : Expr}
    (applied : t.apply e = none) (entries : List Entry) (operands : List Expr) :
    applyEntry entry entries (e :: (t.operands ++ operands)) =
      .error (.at .equalsBetweenCompounds entry.pos) := by
  cases t with
  | not => cases applied
  | equals k =>
    simp only [applyEntry, hkind, Tight.kind, Tight.operands, List.singleton_append,
      popOperand_cons, bind, Except.bind]
    split
    next => cases applied
    next => rfl

theorem takeChain_stop {kind : EntryKind} {rest : List Entry}
    (hrest : (rest.map Entry.kind).head? ≠ some kind) (operands taken : List Expr) :
    takeChain kind rest operands taken = .ok (rest, operands, taken) := by
  cases rest with
  | nil => rfl
  | cons entry rest =>
    have hne : entry.kind ≠ kind := by simpa using hrest
    simp [takeChain, hne]

/-- The entries of one kind take their operands in textual order. -/
theorem takeChain_append {kind : EntryKind} {es rest : List Entry} {earlier : List Expr}
    (hes : es.map Entry.kind = List.replicate earlier.length kind)
    (hrest : (rest.map Entry.kind).head? ≠ some kind) (operands taken : List Expr) :
    takeChain kind (es ++ rest) (earlier ++ operands) taken =
      .ok (rest, operands, earlier.reverse ++ taken) := by
  induction earlier generalizing es taken with
  | nil =>
    obtain rfl : es = [] := by simpa using hes
    exact takeChain_stop hrest operands taken
  | cons e earlier ih =>
    obtain ⟨entry, es, rfl, hkind, hes⟩ := List.map_eq_cons_iff.mp hes
    simp only [List.cons_append, takeChain, hkind, ↓reduceIte, popOperand_cons, bind, Except.bind]
    rw [ih hes]
    simp

theorem applyChain_append (op : Operator) {entry : Entry} {es rest : List Entry}
    {earlier : List Expr} (hes : es.map Entry.kind = List.replicate earlier.length entry.kind)
    (hrest : (rest.map Entry.kind).head? ≠ some entry.kind) (first last : Expr)
    (operands : List Expr) :
    applyChain op entry (es ++ rest) (last :: first :: (earlier ++ operands)) =
      .ok (rest, .apply op (earlier.reverse ++ [first, last]) :: operands) := by
  simp only [applyChain, popOperand_cons, bind, Except.bind, takeChain_append hes hrest]
  rfl

/-- A loop that applies the entries of a kind from the top of the stack. -/
def Applies {α : Type} (loop : Nat → List Entry → List Expr → Except SyntaxError α)
    (kind : EntryKind) : Prop :=
  ∀ budget entry entries operands, entry.kind = kind →
    loop (budget + 1) (entry :: entries) operands =
      (applyEntry entry entries operands).bind fun p => loop budget p.1 p.2

/-- With a budget for all entries the loop gets from one pair of stacks to another. -/
def Reaches {α : Type} (loop : Nat → List Entry → List Expr → Except SyntaxError α)
    (entries : List Entry) (operands : List Expr) (entries' : List Entry)
    (operands' : List Expr) : Prop :=
  ∀ budget, entries.length ≤ budget →
    ∃ budget', entries'.length ≤ budget' ∧
      loop budget entries operands = loop budget' entries' operands'

/-- With a budget for all entries the loop fails at one of them. -/
def Fails {α : Type} (loop : Nat → List Entry → List Expr → Except SyntaxError α)
    (entries : List Entry) (operands : List Expr) : Prop :=
  ∀ budget, entries.length ≤ budget →
    ∃ entry ∈ entries, ∃ fault, fault.ofText = true ∧
      loop budget entries operands = .error (.at fault entry.pos)

section

variable {α : Type} {loop : Nat → List Entry → List Expr → Except SyntaxError α}
variable {entry : Entry} {entries entries' entries'' es rest : List Entry}
variable {operands operands' operands'' below earlier : List Expr} {e tree : Expr}

theorem Reaches.refl : Reaches loop entries operands entries operands :=
  fun budget h => ⟨budget, h, rfl⟩

theorem Reaches.trans (h : Reaches loop entries operands entries' operands')
    (h' : Reaches loop entries' operands' entries'' operands'') :
    Reaches loop entries operands entries'' operands'' := by
  intro budget hb
  obtain ⟨budget', hb', he⟩ := h budget hb
  obtain ⟨budget'', hb'', he'⟩ := h' budget' hb'
  exact ⟨budget'', hb'', he.trans he'⟩

theorem Reaches.fails (h : Reaches loop entries operands entries' operands')
    (hsub : entries' ⊆ entries) (hf : Fails loop entries' operands') :
    Fails loop entries operands := by
  intro budget hb
  obtain ⟨budget', hb', he⟩ := h budget hb
  obtain ⟨entry, hentry, fault, hfault, he'⟩ := hf budget' hb'
  exact ⟨entry, hsub hentry, fault, hfault, he.trans he'⟩

theorem exists_budget {budget : Nat} (h : (entry :: entries).length ≤ budget) :
    ∃ n, budget = n + 1 ∧ entries.length ≤ n := by
  rw [List.length_cons] at h
  exact ⟨budget - 1, by omega, by omega⟩

theorem Applies.reaches {kind : EntryKind} (h : Applies loop kind) (hkind : entry.kind = kind)
    (applied : applyEntry entry entries operands = .ok (entries', operands'))
    (hlength : entries'.length ≤ entries.length) :
    Reaches loop (entry :: entries) operands entries' operands' := by
  intro budget hb
  obtain ⟨budget, rfl, hbudget⟩ := exists_budget hb
  refine ⟨budget, Nat.le_trans hlength hbudget, ?_⟩
  rw [h budget entry entries operands hkind, applied]
  rfl

theorem Applies.fails {kind : EntryKind} (h : Applies loop kind) (hkind : entry.kind = kind)
    {fault : SyntaxFault} (hfault : fault.ofText = true)
    (applied : applyEntry entry entries operands = .error (.at fault entry.pos)) :
    Fails loop (entry :: entries) operands := by
  intro budget hb
  obtain ⟨budget, rfl, -⟩ := exists_budget hb
  refine ⟨entry, by simp, fault, hfault, ?_⟩
  rw [h budget entry entries operands hkind, applied]
  rfl

/-- What waits for an operand is applied to it, the latest first. -/
theorem reaches_unary (hn : Applies loop .not) (he : Applies loop .equals) {ts : List Tight}
    (hes : es.map Entry.kind = ts.map Tight.kind)
    (applied : ts.foldlM (fun e t => t.apply e) e = some tree) :
    Reaches loop (es ++ rest) (e :: (ts.flatMap Tight.operands ++ below)) rest (tree :: below) := by
  induction ts generalizing es e with
  | nil =>
    obtain rfl : es = [] := by simpa using hes
    obtain rfl := Option.some.inj applied
    exact .refl
  | cons t ts ih =>
    obtain ⟨entry, es, rfl, hkind, hes⟩ := List.map_eq_cons_iff.mp hes
    obtain ⟨next, hnext, applied⟩ := Option.bind_eq_some_iff.mp applied
    have happlies : Applies loop t.kind := by cases t <;> assumption
    have happlied := applyEntry_tight hkind hnext (es ++ rest) (ts.flatMap Tight.operands ++ below)
    rw [List.flatMap_cons, List.append_assoc]
    exact (happlies.reaches hkind happlied (Nat.le_refl _)).trans (ih hes applied)

theorem fails_unary (hn : Applies loop .not) (he : Applies loop .equals) {ts : List Tight}
    (hes : es.map Entry.kind = ts.map Tight.kind)
    (applied : ts.foldlM (fun e t => t.apply e) e = none) :
    Fails loop (es ++ rest) (e :: (ts.flatMap Tight.operands ++ below)) := by
  induction ts generalizing es e with
  | nil => cases applied
  | cons t ts ih =>
    obtain ⟨entry, es, rfl, hkind, hes⟩ := List.map_eq_cons_iff.mp hes
    have happlies : Applies loop t.kind := by cases t <;> assumption
    rw [List.flatMap_cons, List.append_assoc]
    cases hnext : t.apply e with
    | none =>
      exact happlies.fails hkind rfl (applyEntry_tight_error hkind hnext _ _)
    | some next =>
      have hrest : ts.foldlM (fun e t => t.apply e) next = none := by
        simpa [List.foldlM_cons, hnext] using applied
      have happlied :=
        applyEntry_tight hkind hnext (es ++ rest) (ts.flatMap Tight.operands ++ below)
      exact (happlies.reaches hkind happlied (Nat.le_refl _)).fails (List.subset_cons_self _ _)
        (ih hes hrest)

/-- A chain of one connective is applied in one go. -/
theorem reaches_chain {kind : EntryKind} {op : Operator} (happlies : Applies loop kind)
    (hop : ∀ entry : Entry, entry.kind = kind → applyEntry entry = applyChain op entry)
    (hes : es.map Entry.kind = List.replicate earlier.length kind)
    (hrest : (rest.map Entry.kind).head? ≠ some kind) :
    Reaches loop (es ++ rest) (e :: (earlier ++ below)) rest
      (.chain op (earlier.reverse ++ [e]) :: below) := by
  cases earlier with
  | nil =>
    obtain rfl : es = [] := by simpa using hes
    exact .refl
  | cons first earlier =>
    obtain ⟨entry, es, rfl, hkind, hes⟩ := List.map_eq_cons_iff.mp hes
    have happlied := applyChain_append op (hkind ▸ hes) (hkind ▸ hrest) first e below
    rw [← hop entry hkind] at happlied
    have htree : Expr.chain op ((first :: earlier).reverse ++ [e]) =
        .apply op (earlier.reverse ++ [first, e]) := by
      rw [Expr.chain_of_two_le (by simp)]
      simp
    rw [htree]
    exact happlies.reaches hkind happlied (by simp)

end

end Parsing

end PathFilter
