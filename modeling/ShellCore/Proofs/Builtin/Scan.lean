import ShellCore.Proofs.Builtin.Confinement
import ShellCore.Proofs.Builtin.Replay

/-! Reading the options of a script that enters and leaves scopes between them. -/

namespace ShellCore.Builtin.Getopts

open CommandLine Environment ScopeStack Decimal

variable {args : List String} {spec : OptionSpec} {c : Cursor} {text name : String}
  {rest : List String} {env : Environment (List String)}

/-- What a script does. -/
inductive Move
  | read
  | enter
  | leave
  deriving DecidableEq, Repr

def Move.run (args : List String) :
    Move → Environment (List String) → Environment (List String)
  | .read, env => (invoke main args env).2
  | .enter, env => env.mapScopes push
  | .leave, env => env.mapScopes (·.pop.2)

/-- The topmost scope has an offset inside an argument. It is lost when the scope is left. -/
def losesOffset (env : Environment (List String)) : Bool :=
  env.scopes.pop.1.any fun t => (t.lookup optOffset).any fun e => e.value != some "0"

/-- The invocation goes on where the cursor stands, and tells the script what the parser finds
there. -/
structure GoesOn (args : List String) (spec : OptionSpec) (name : String) (c : Cursor)
    (env : Environment (List String)) (o : Outcome × Environment (List String)) : Prop where
  place : loadCursor env spec args = { index := c.index, sub := c.sub }
  outcome : o.1 = .ofStatus (if (next args spec c).1 = .done then .failure else .success)
  result : o.2.value? name = some (shown spec.silent (next args spec c).1)

/-- The cursor when the topmost scope is left, if a lost offset starts its argument again. -/
def restarted (env : Environment (List String)) (c : Cursor) : Cursor :=
  if losesOffset env then { c with sub := 0 } else c

/-- The cursor when the topmost scope is left, if no scope holds it. -/
def kept (_ : Environment (List String)) (c : Cursor) : Cursor := c

/-- Each invocation of the script goes on where one cursor stands. What becomes of the cursor when
a scope is left is given. -/
def ReadsOn (left : Environment (List String) → Cursor → Cursor) (text name : String)
    (rest : List String) (c : Cursor) (env : Environment (List String)) : List Move → Prop
  | [] => True
  | .read :: moves =>
    GoesOn (name :: rest) (.ofText text.toList) name c env
        (invoke main (text :: name :: rest) env) ∧
      ReadsOn left text name rest (next (name :: rest) (.ofText text.toList) c).2
        (Move.run (text :: name :: rest) .read env) moves
  | .enter :: moves =>
    ReadsOn left text name rest c (Move.run (text :: name :: rest) .enter env) moves
  | .leave :: moves =>
    ReadsOn left text name rest (left env c) (Move.run (text :: name :: rest) .leave env) moves

/-- Nothing is read after an offset has been lost. -/
def KeepsOffset (args : List String) (env : Environment (List String)) : List Move → Prop
  | [] => True
  | move :: moves =>
    (move = .leave → losesOffset env → .read ∉ moves) ∧ KeepsOffset args (move.run args env) moves

/-- The variables of a tame shell tell the place of the cursor. There is one index, in the global
table, and at most one offset, in any table. -/
structure Stands (args : List String) (spec : OptionSpec) (c : Cursor)
    (env : Environment (List String)) : Prop where
  host : env.host = Host.standalone
  tame : env.Tame
  place : InPlace spec args c
  index : env.scopes.Lodged optIndex (some 0)
  index_value : env.value? optIndex = some (natText c.index)
  offset : ∃ lodging, env.scopes.Lodged optOffset lodging ∧
    env.value? optOffset = lodging.map (fun _ => natText c.sub) ∧ (lodging = none → c.sub = 0)

theorem Stands.loadCursor (h : Stands args spec c env) (hf : Fits args) :
    loadCursor env spec args = { index := c.index, sub := c.sub } := by
  obtain ⟨lodging, -, hv, h0⟩ := h.offset
  cases lodging with
  | none => exact loadCursor_start h.place (h0 rfl) h.index_value hv
  | some i => exact loadCursor_eq hf h.place h.index_value hv

theorem stands_new (args : List String) (spec : OptionSpec) :
    Stands args spec {} (.new Host.standalone []) := by
  have hi : (Environment.new Host.standalone []).scopes.Lodged optIndex (some 0) := by
    intro i
    rw [entryAt_new]
    by_cases h : i = 0
    · simp [h]
    · simp [h, Ne.symm h]
  have ho : (Environment.new Host.standalone []).scopes.Lodged optOffset none := by
    intro i
    rw [entryAt_new, if_neg fun h => absurd h.1 (by decide)]
    simp
  refine ⟨rfl, tame_new [], inPlace_start (Nat.le_refl 1) (by decide) none .absent, hi, ?_, none,
    ho, ?_, fun _ => rfl⟩
  · rw [value?, hi.get_eq, Option.bind_some, entryAt_new, if_pos ⟨rfl, rfl⟩,
      natText_of_lt (by decide)]
    rfl
  · rw [value?, ho.get_eq]
    rfl

theorem Stands.enter (h : Stands args spec c env) :
    Stands args spec c (env.mapScopes push) := by
  have hv : ∀ k, (env.mapScopes push).value? k = env.value? k := fun k =>
    congrArg (·.bind (·.value)) (get_congr fun i => entryAt_push env.scopes i k)
  obtain ⟨lodging, hl, ho, h0⟩ := h.offset
  exact ⟨h.host, h.tame.push, h.place, h.index.push, (hv optIndex).trans h.index_value, lodging,
    hl.push, (hv optOffset).trans ho, h0⟩

theorem losesOffset_eq (env : Environment (List String)) :
    losesOffset env = (env.scopes.entryAt env.scopes.pop.2.depth optOffset).any
      (·.value != some "0") := by
  rw [losesOffset, ← lookup_pop]
  cases env.scopes.pop.1 <;> rfl

/-- The offset that is lost is the one of the cursor. -/
theorem losesOffset_iff {lodging : Option Nat} (hl : env.scopes.Lodged optOffset lodging)
    (hv : env.value? optOffset = lodging.map (fun _ => natText c.sub)) :
    losesOffset env ↔ lodging = some env.scopes.pop.2.depth ∧ c.sub ≠ 0 := by
  rw [losesOffset_eq]
  by_cases hd : lodging = some env.scopes.pop.2.depth
  · obtain ⟨e, he⟩ := Option.isSome_iff_exists.mp ((hl _).mpr hd)
    have hve : e.value = some (natText c.sub) := by
      rw [value?, hl.get_eq, hd, Option.bind_some, he] at hv
      exact hv
    have h0 : natText c.sub = "0" ↔ c.sub = 0 := by
      have hz : natText 0 = "0" := natText_of_lt (by decide)
      rw [← hz]
      exact ⟨Arith.natText_injective, congrArg natText⟩
    simp [he, hve, hd, h0]
  · have hn : env.scopes.entryAt env.scopes.pop.2.depth optOffset = none :=
      Option.not_isSome_iff_eq_none.mp fun hs => hd ((hl _).mp hs)
    simp [hn, hd]

/-- The index stays, as it is global. The offset stays unless it is lost, and with it the place
inside the argument. -/
theorem Stands.leave (h : Stands args spec c env) :
    Stands args spec (restarted env c) (env.mapScopes (·.pop.2)) := by
  obtain ⟨lodging, hl, ho, h0⟩ := h.offset
  have hlost := losesOffset_iff hl ho
  have hi : some 0 ≠ some env.scopes.pop.2.depth := by simp [depth]
  have hiv : (env.mapScopes (·.pop.2)).value? optIndex = some (natText c.index) :=
    (congrArg (·.bind (·.value)) (h.index.get_pop hi)).trans h.index_value
  by_cases hd : lodging = some env.scopes.pop.2.depth
  -- The offset goes with the scope. If it is not lost, it is zero, as is none.
  · have hgone := (hd ▸ hl).pop_lodging
    have hnone : (env.mapScopes (·.pop.2)).value? optOffset = none := by
      show (env.scopes.pop.2.get optOffset).bind (·.value) = none
      rw [hgone.get_eq]
      rfl
    have hc : restarted env c = { c with sub := 0 } := by
      unfold restarted
      split
      · rfl
      · rename_i hs
        have hsub : c.sub = 0 := by simpa [hd] using hs ∘ hlost.mpr
        rw [← hsub]
    rw [hc]
    exact ⟨h.host, h.tame.pop, inPlace_start h.place.index_pos h.place.index_lt _ _,
      h.index.pop hi, hiv, none, hgone, hnone, fun _ => rfl⟩
  · rw [restarted, if_neg fun hs => hd (hlost.mp hs).1]
    exact ⟨h.host, h.tame.pop, h.place, h.index.pop hi, hiv, lodging, hl.pop hd,
      (congrArg (·.bind (·.value)) (hl.get_pop hd)).trans ho, h0⟩

/-- Nothing fails where nothing is read-only, and the place is written down. -/
theorem run_invoke_main (ht : text ≠ "--") (hn : isName name.toList) (rest : List String)
    (hq : env.Quiet) (hw : env.Writable) :
    let r := next (name :: rest) (.ofText text.toList)
      (loadCursor env (.ofText text.toList) (name :: rest))
    let o := invoke main (text :: name :: rest) env
    o.1 = .ofStatus (if r.1 = .done then .failure else .success) ∧
      o.2.value? optIndex = some (natText r.2.index) ∧
      o.2.value? optOffset = some (natText r.2.sub) := by
  dsimp only
  rw [invoke_main ht]
  dsimp only
  rw [run_step]
  dsimp only
  generalize next (name :: rest) (.ofText text.toList)
    (loadCursor env (.ofText text.toList) (name :: rest)) = r
  obtain ⟨message, env', hr⟩ :=
    (behaves_report hn r.1 r.2 (OptionSpec.ofText text.toList).silent).succeeds env hq hw
  obtain ⟨⟨env1, env2, env3, hreport⟩, -⟩ := reported_of_report hr
  rw [hr]
  obtain ⟨hi, ho⟩ := hreport.place hq.host
  exact ⟨rfl, (value?_told message env' optIndex).trans hi,
    (value?_told message env' optOffset).trans ho⟩

theorem Stands.goesOn (ht : text ≠ "--") (hn : isName name.toList) (hi : name ≠ optIndex)
    (ho : name ≠ optOffset) (ha : name ≠ optArgument) (hf : Fits (name :: rest))
    (h : Stands (name :: rest) (.ofText text.toList) c env) :
    GoesOn (name :: rest) (.ofText text.toList) name c env
      (invoke main (text :: name :: rest) env) := by
  have hload := h.loadCursor hf
  obtain ⟨hstatus, -, -⟩ := run_invoke_main ht hn rest (h.tame.quiet h.host) h.tame.writable
  have hok : (invoke main (text :: name :: rest) env).1.exitStatus ≠ .error := by
    rw [hstatus]
    split <;> decide
  have hr := invoke_replays ht h.host hi ho ha hf hok
  rw [hload, next_place] at hr
  exact ⟨hload, hr.outcome, hr.result (h.tame.plain name) (h.tame.plain optArgument)⟩

theorem Stands.read (ht : text ≠ "--") (hn : isName name.toList) (hf : Fits (name :: rest))
    (h : Stands (name :: rest) (.ofText text.toList) c env) :
    Stands (name :: rest) (.ofText text.toList) (next (name :: rest) (.ofText text.toList) c).2
      (invoke main (text :: name :: rest) env).2 := by
  have hq := h.tame.quiet h.host
  have htouch := touches_invoke_main hq (text :: name :: rest)
  obtain ⟨-, hi, ho⟩ := run_invoke_main ht hn rest hq h.tame.writable
  rw [h.loadCursor hf, next_place] at hi ho
  have hsome : ∀ {k value}, (invoke main (text :: name :: rest) env).2.value? k = some value →
      ((invoke main (text :: name :: rest) env).2.scopes.get k).isSome := by
    intro k value hv
    exact Option.isSome_of_isSome_bind (f := (·.value)) (Option.isSome_iff_exists.mpr ⟨value, hv⟩)
  obtain ⟨lodging, hl, -, -⟩ := h.offset
  exact ⟨htouch.host.trans h.host, htouch.tame h.tame, inPlace_next hf.length_lt h.place,
    h.index.confined htouch.confined (hsome hi), hi, _, hl.confined htouch.confined (hsome ho), ho,
    fun hc => nomatch hc⟩

theorem losesOffset_sub (h : Stands args spec c env) (hl : losesOffset env) : c.sub ≠ 0 := by
  obtain ⟨lodging, hlodged, ho, -⟩ := h.offset
  exact ((losesOffset_iff hlodged ho).mp hl).2

/-- Whatever a script does, each invocation goes on with the rest of an argument, or with all of it
after the offset has been lost. -/
theorem readsOn_restarted (ht : text ≠ "--") (hn : isName name.toList) (hi : name ≠ optIndex)
    (ho : name ≠ optOffset) (ha : name ≠ optArgument) (hf : Fits (name :: rest))
    (h : Stands (name :: rest) (.ofText text.toList) c env) (moves : List Move) :
    ReadsOn restarted text name rest c env moves := by
  induction moves generalizing env c with
  | nil => trivial
  | cons move moves ih =>
    cases move with
    | read => exact ⟨h.goesOn ht hn hi ho ha hf, ih (h.read ht hn hf)⟩
    | enter => exact ih h.enter
    | leave => exact ih h.leave

/-- Where the place inside an argument has been lost, the next invocation does not go on there. -/
theorem not_readsOn {lost : Cursor} {moves : List Move} (hf : Fits (name :: rest))
    (h : Stands (name :: rest) (.ofText text.toList) lost env) (h0 : lost.sub = 0)
    (hc : c.sub ≠ 0) (hm : .read ∈ moves) : ¬ ReadsOn kept text name rest c env moves := by
  induction moves generalizing env lost with
  | nil => cases hm
  | cons move moves ih =>
    cases move with
    | read =>
      intro hr
      have hp := hr.1.place
      rw [h.loadCursor hf] at hp
      exact hc ((congrArg Cursor.sub hp).symm.trans h0)
    | enter => exact ih h.enter h0 (by simpa using hm)
    | leave =>
      -- An offset of zero cannot be lost again.
      have hl : ¬ losesOffset env := fun hl => losesOffset_sub h hl h0
      have hleave := h.leave
      rw [restarted, if_neg hl] at hleave
      exact ih hleave h0 (by simpa using hm)

theorem readsOn_of_not_mem {moves : List Move} (hm : .read ∉ moves) :
    ReadsOn kept text name rest c env moves := by
  induction moves generalizing env with
  | nil => trivial
  | cons move moves ih =>
    have hm' : .read ∉ moves := fun hr => hm (List.mem_cons_of_mem move hr)
    cases move with
    | read => exact absurd List.mem_cons_self hm
    | enter => exact ih hm'
    | leave => exact ih hm'

theorem keepsOffset_of_not_mem {moves : List Move} (hm : .read ∉ moves) :
    KeepsOffset args env moves := by
  induction moves generalizing env with
  | nil => trivial
  | cons move moves ih =>
    have hm' : .read ∉ moves := fun hr => hm (List.mem_cons_of_mem move hr)
    exact ⟨fun _ _ => hm', ih hm'⟩

theorem readsOn_kept_iff (ht : text ≠ "--") (hn : isName name.toList) (hi : name ≠ optIndex)
    (ho : name ≠ optOffset) (ha : name ≠ optArgument) (hf : Fits (name :: rest))
    (h : Stands (name :: rest) (.ofText text.toList) c env) (moves : List Move) :
    ReadsOn kept text name rest c env moves ↔
      KeepsOffset (text :: name :: rest) env moves := by
  induction moves generalizing env c with
  | nil => exact Iff.rfl
  | cons move moves ih =>
    cases move with
    | read =>
      have hk := ih (h.read ht hn hf)
      have hg := h.goesOn ht hn hi ho ha hf
      exact ⟨fun hr => ⟨fun hm => Move.noConfusion hm, hk.mp hr.2⟩, fun hr => ⟨hg, hk.mpr hr.2⟩⟩
    | enter =>
      have hk := ih h.enter
      exact ⟨fun hr => ⟨fun hm => Move.noConfusion hm, hk.mp hr⟩, fun hr => hk.mpr hr.2⟩
    | leave =>
      -- The induction does not apply behind a loss, where the cursor is not that of the variables.
      have hleave := h.leave
      by_cases hl : losesOffset env
      · rw [restarted, if_pos hl] at hleave
        constructor
        · intro hr
          have hm : .read ∉ moves := fun hm =>
            not_readsOn hf hleave rfl (losesOffset_sub h hl) hm hr
          exact ⟨fun _ _ => hm, keepsOffset_of_not_mem hm⟩
        · intro hr
          exact readsOn_of_not_mem (by simpa using hr.1 rfl hl)
      · rw [restarted, if_neg hl] at hleave
        have hk := ih hleave
        exact ⟨fun hr => ⟨fun _ h => absurd h hl, hk.mp hr⟩, fun hr => hk.mpr hr.2⟩

/-- In a new shell, each invocation of a script goes on where the last one has stopped, except that
a scope that is left with an offset takes the place inside the argument with it. All of them go on
where one parser stops exactly if nothing is read after such a loss. -/
theorem scan_in_scopes (ht : text ≠ "--") (hn : isName name.toList) (hi : name ≠ optIndex)
    (ho : name ≠ optOffset) (ha : name ≠ optArgument) (hf : Fits (name :: rest))
    (moves : List Move) :
    ReadsOn restarted text name rest {} (.new Host.standalone []) moves ∧
      (ReadsOn kept text name rest {} (.new Host.standalone []) moves ↔
        KeepsOffset (text :: name :: rest) (.new Host.standalone []) moves) :=
  ⟨readsOn_restarted ht hn hi ho ha hf (stands_new _ _) moves,
    readsOn_kept_iff ht hn hi ho ha hf (stands_new _ _) moves⟩

/-- A scope may be left between two words, where the offset is zero. -/
theorem scan_survives_between_words :
    ReadsOn kept "ab" "x" ["-ab", "-a"] {} (.new Host.standalone [])
      [.enter, .read, .read, .leave, .read] := by
  have hf : Fits ["x", "-ab", "-a"] := ⟨by decide, by decide⟩
  have hn : losesOffset (Move.run ["ab", "x", "-ab", "-a"] .read (Move.run
      ["ab", "x", "-ab", "-a"] .read (Move.run ["ab", "x", "-ab", "-a"] .enter
        (.new Host.standalone [])))) = false := by decide +kernel
  have ht : "ab" ≠ "--" := by decide
  have hs := scan_in_scopes ht (by decide) (by decide) (by decide) (by decide) hf
    [.enter, .read, .read, .leave, .read]
  refine hs.2.mpr ⟨nofun, nofun, nofun, fun _ hl => ?_, nofun, trivial⟩
  exact absurd (hn.symm.trans hl) Bool.false_ne_true

/-- Read in a scope that is left in the middle of a word, its first option is reported twice, where
the parser finds the second one. -/
theorem option_reported_twice :
    let args := ["ab", "x", "-ab"]
    let env := Move.run args .enter (.new Host.standalone [])
    let env' := Move.run args .leave (Move.run args .read env)
    (invoke main args env).2.value? "x" = some "a" ∧
      (invoke main args env').2.value? "x" = some "a" ∧
      (next ["x", "-ab"] (.ofText ['a', 'b'])
        (parsed ["x", "-ab"] (.ofText ['a', 'b']) {} 1)).1 = .option 'b' false := by
  decide +kernel

end ShellCore.Builtin.Getopts
