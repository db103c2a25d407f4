import Mathlib.Data.List.Basic

-- Source text as lines and words, and the lines that conditional compilation leaves of it, for
-- texts whose lines stand alone: none is continued by a backslash, and no comment spans two.
namespace BudokaiRuntime.ConditionalLines

abbrev Line : Type := List Char

def blank (c : Char) : Bool := c == ' ' || c == '\t'

def words (line : Line) : List (List Char) := (line.splitOnP blank).filter (· ≠ [])

inductive Cond where
  | isDefined (name : Line)
  | isUndefined (name : Line)
  | expr (text : Line)
deriving DecidableEq

inductive Kind where
  | plain
  | opens (c : Cond)
  | orElse (c : Line)
  | otherwise
  | closes
  | control
deriving DecidableEq

def directive (text : Line) : Kind :=
  let word := text.takeWhile fun c => !blank c
  let rest := (text.dropWhile fun c => !blank c).dropWhile blank
  if word = "if\x64ef".toList then .opens (.isDefined rest)
  else if word = "ifn\x64ef".toList then .opens (.isUndefined rest)
  else if word = "if".toList then .opens (.expr rest)
  else if word = "elif".toList then .orElse rest
  else if word = "else".toList then .otherwise
  else if word = "endif".toList then .closes
  else .control

def kind (line : Line) : Kind :=
  match line.dropWhile blank with
  | '#'::text => directive (text.dropWhile blank)
  | _ => .plain

-- The macros as they stand: what a condition says and what another directive does to them.
structure Macros (σ : Type) where
  test : σ → Cond → Bool
  obey : σ → Line → σ

-- A conditional that is open: the lines around it compiled, this branch compiled, an earlier
-- branch or this one taken, its #else behind it.
structure Level where
  outer : Bool
  active : Bool
  taken : Bool
  last : Bool

structure State (σ : Type) where
  levels : List Level
  env : σ
  out : List Line

section Run
variable {σ : Type} (macros : Macros σ)

def State.live (s : State σ) : Bool := s.levels.head?.all Level.active

def State.branch (s : State σ) (test : Bool) (last : Bool) : Option (State σ) :=
  match s.levels with
  | [] => none
  | level::rest =>
      let active := level.outer && !level.taken && test
      if level.last then none
      else some {s with levels := ⟨level.outer,active,level.taken || active,last⟩::rest}

def step (s : State σ) (line : Line) : Option (State σ) :=
  match kind line with
  | .plain => some (if s.live then {s with out := s.out ++ [line]} else s)
  | .control => some (if s.live then {s with env := macros.obey s.env line} else s)
  | .opens c =>
      let active := s.live && macros.test s.env c
      some {s with levels := ⟨s.live,active,active,false⟩::s.levels}
  | .orElse c => s.branch (macros.test s.env (.expr c)) false
  | .otherwise => s.branch true true
  | .closes => if s.levels = [] then none else some {s with levels := s.levels.tail}

def run (text : List Line) (s : State σ) : Option (State σ) := text.foldlM (step macros) s

-- The lines left; `none` for conditionals that do not nest.
def compile (env : σ) (text : List Line) : Option (List Line) :=
  (run macros text ⟨[],env,[]⟩).bind fun s => if s.levels.isEmpty then some s.out else none
end Run

section Words
theorem words_append {sep : Char} (space : blank sep = true) (one two : Line) :
    words (one ++ sep::two) = words one ++ words two := by
  have split_ := List.splitOnP_append_cons one two space
  simp only [words,split_,List.filter_append]

theorem words_one {word : Line} (solid : word.all (!blank ·) = true) (some_ : word ≠ []) : words word = [word] := by
  have single : word.splitOnP blank = [word] := by
    refine List.splitOnP_eq_singleton fun c member => ?_
    exact Bool.not_eq_true' _ ▸ List.all_eq_true.mp solid c member
  rw [words,single]
  simp [some_]

theorem words_blank {line : Line} (space : line.all blank = true) : words line = [] := by
  induction line with
  | nil => rfl
  | cons c line ih =>
      obtain ⟨here,rest⟩ := Bool.and_eq_true_iff.mp ((List.all_cons ..).symm.trans space)
      have before := words_append here [] line
      rw [List.nil_append] at before
      rw [before,ih rest]
      rfl

theorem words_indent {indent : Line} (space : indent.all blank = true) (line : Line) :
    words (indent ++ line) = words line := by
  induction indent with
  | nil => rfl
  | cons c indent ih =>
      obtain ⟨here,rest⟩ := Bool.and_eq_true_iff.mp ((List.all_cons ..).symm.trans space)
      have before := words_append here [] (indent ++ line)
      rw [List.nil_append] at before
      rw [List.cons_append,before,ih rest]
      rfl

theorem words_trail {trail : Line} (space : trail.all blank = true) (line : Line) :
    words (line ++ trail) = words line := by
  cases trail with
  | nil => rw [List.append_nil]
  | cons c trail =>
      obtain ⟨here,rest⟩ := Bool.and_eq_true_iff.mp ((List.all_cons ..).symm.trans space)
      rw [words_append here,words_blank rest,List.append_nil]

theorem dropWhile_indent {indent : Line} (space : indent.all blank = true) (line : Line) :
    (indent ++ line).dropWhile blank = line.dropWhile blank := by
  induction indent with
  | nil => rfl
  | cons c indent ih =>
      obtain ⟨here,rest⟩ := Bool.and_eq_true_iff.mp ((List.all_cons ..).symm.trans space)
      rw [List.cons_append,List.dropWhile_cons_of_pos here,ih rest]

theorem kind_indent {indent : Line} (space : indent.all blank = true) (line : Line) : kind (indent ++ line) = kind line := by
  rw [kind,kind,dropWhile_indent space]
end Words

section Blocks
variable {σ : Type} {macros : Macros σ} {s : State σ}

theorem run_append (one two : List Line) (s : State σ) :
    run macros (one ++ two) s = (run macros one s).bind (run macros two) := List.foldlM_append ..

theorem run_cons (line : Line) (text : List Line) (s : State σ) :
    run macros (line::text) s = (step macros s line).bind (run macros text) := List.foldlM_cons ..

def State.emit (s : State σ) (lines : List Line) : State σ := if s.live then {s with out := s.out ++ lines} else s

theorem emit_live (s : State σ) (lines : List Line) : (s.emit lines).live = s.live := by
  unfold State.emit
  split <;> rfl

theorem emit_env (s : State σ) (lines : List Line) : (s.emit lines).env = s.env := by
  unfold State.emit
  split <;> rfl

theorem emit_append (s : State σ) (one two : List Line) : (s.emit one).emit two = s.emit (one ++ two) := by
  rw [State.emit,emit_live]
  unfold State.emit
  split
  · rw [List.append_assoc]
  · rfl

theorem plain_step (plain : kind line = .plain) : step macros s line = some (s.emit [line]) := by
  rw [step,plain]
  rfl

theorem plain_run {lines : List Line} (plain : ∀ line ∈ lines, kind line = .plain) :
    run macros lines s = some (s.emit lines) := by
  induction lines generalizing s with
  | nil =>
      show some s = _
      unfold State.emit
      split
      · rw [List.append_nil]
      · rfl
  | cons line lines ih =>
      rw [run_cons,plain_step (plain line List.mem_cons_self),Option.bind_some,
        ih fun other member => plain other (List.mem_cons_of_mem _ member),emit_append]
      rfl

def State.push (s : State σ) (active taken last : Bool) : State σ :=
  {s with levels := ⟨s.live,active,taken,last⟩::s.levels}

theorem push_emit (s : State σ) (active taken last : Bool) (lines : List Line) :
    (s.push active taken last).emit lines =
      {s with out := if active then s.out ++ lines else s.out}.push active taken last := by
  cases active <;> rfl

theorem opens_step (opens : kind a = .opens c) :
    step macros s a = some (s.push (s.live && macros.test s.env c) (s.live && macros.test s.env c) false) := by
  rw [step,opens]
  rfl

theorem otherwise_step (otherwise : kind b = .otherwise) (active taken : Bool) :
    step macros (s.push active taken false) b = some (s.push (s.live && !taken) (taken || (s.live && !taken)) true) := by
  rw [step,otherwise]
  simp [State.branch,State.push]

theorem closes_step (closes : kind d = .closes) (active taken last : Bool) :
    step macros (s.push active taken last) d = some s := by
  rw [step,closes]
  rfl

theorem conditional_run (opens : kind a = .opens c) (otherwise : kind b = .otherwise) (closes : kind d = .closes)
    {yes no : List Line} (plain : ∀ line ∈ yes, kind line = .plain) (plain' : ∀ line ∈ no, kind line = .plain) :
    run macros (a::(yes ++ b::(no ++ [d]))) s = some (s.emit (if macros.test s.env c then yes else no)) := by
  rw [run_cons,opens_step opens,Option.bind_some,run_append,plain_run plain,Option.bind_some,push_emit,run_cons,
    otherwise_step otherwise,Option.bind_some,run_append,plain_run plain',Option.bind_some,push_emit,run_cons,
    closes_step closes,Option.bind_some]
  refine congrArg some ?_
  obtain ⟨levels,env,out⟩ := s
  have kept (lines : List Line) : State.live ⟨levels,env,lines⟩ = levels.head?.all Level.active := rfl
  simp only [State.emit,kept]
  cases levels.head?.all Level.active <;> cases macros.test env c <;> simp
end Blocks

-- A text with some lines replaced, against what is left of the text with its lines replaced.
section Replacement
variable {σ : Type} {macros : Macros σ} {f g : Line → List Line}

def State.map (g : Line → List Line) (s : State σ) : State σ := {s with out := s.out.flatMap g}

theorem map_emit (g : Line → List Line) (s : State σ) (lines : List Line) :
    (s.emit lines).map g = (s.map g).emit (lines.flatMap g) := by
  have same : (s.map g).live = s.live := rfl
  unfold State.emit
  rw [same]
  cases s.live
  · rfl
  · simp [State.map]

theorem run_replaced (each : ∀ line ∈ text, ∀ s, run macros (f line) (s.map g) = (step macros s line).map (State.map g))
    (s : State σ) : run macros (text.flatMap f) (s.map g) = (run macros text s).map (State.map g) := by
  induction text generalizing s with
  | nil => rfl
  | cons line text ih =>
      rw [List.flatMap_cons,run_append,each line List.mem_cons_self,run_cons]
      cases step macros s line with
      | none => rfl
      | some t => exact ih (fun other member => each other (List.mem_cons_of_mem _ member)) t

theorem compile_replaced (env : σ)
    (each : ∀ line ∈ text, ∀ s, run macros (f line) (s.map g) = (step macros s line).map (State.map g)) :
    compile macros env (text.flatMap f) = (compile macros env text).map (List.flatMap g) := by
  have ran := run_replaced each ⟨[],env,[]⟩
  have start : State.map g (⟨[],env,[]⟩ : State σ) = ⟨[],env,[]⟩ := rfl
  rw [start] at ran
  rw [compile,compile,ran]
  cases run macros text ⟨[],env,[]⟩ with
  | none => rfl
  | some s =>
      show (if s.levels.isEmpty then _ else _) = Option.map _ (if s.levels.isEmpty then _ else _)
      split <;> rfl

theorem branch_map (g : Line → List Line) (s : State σ) (test last : Bool) :
    (s.map g).branch test last = (s.branch test last).map (State.map g) := by
  obtain ⟨levels,env,out⟩ := s
  cases levels with
  | nil => rfl
  | cons level rest =>
      simp only [State.branch,State.map]
      split <;> rfl

theorem step_map (s : State σ) (same : kind line = .plain → g line = [line]) :
    step macros (s.map g) line = (step macros s line).map (State.map g) := by
  cases sort : kind line with
  | plain =>
      rw [plain_step sort,plain_step sort,Option.map_some,map_emit,List.flatMap_singleton,same sort]
  | opens c =>
      rw [step,step,sort]
      rfl
  | orElse c =>
      rw [step,step,sort]
      exact branch_map g s _ false
  | otherwise =>
      rw [step,step,sort]
      exact branch_map g s true true
  | closes =>
      rw [step,step,sort]
      show (if s.levels = [] then _ else _) = Option.map _ (if s.levels = [] then _ else _)
      split <;> rfl
  | control =>
      rw [step,step,sort]
      show some (if s.live then _ else _) = Option.map _ (some (if s.live then _ else _))
      split <;> rfl

theorem keeps_line (same : kind line = .plain → g line = [line]) (s : State σ) :
    run macros [line] (s.map g) = (step macros s line).map (State.map g) := by
  rw [run_cons,step_map s same]
  cases step macros s line with
  | none => rfl
  | some t => rfl

theorem flatMap_eq_iff {f g : α → List β} {l : List α} (level : ∀ x ∈ l, (f x).length = (g x).length) :
    l.flatMap f = l.flatMap g ↔ ∀ x ∈ l, f x = g x := by
  induction l with
  | nil => exact iff_of_true rfl nofun
  | cons x l ih =>
      rw [List.flatMap_cons,List.flatMap_cons,List.forall_mem_cons,
        ← ih fun y member => level y (List.mem_cons_of_mem _ member)]
      constructor
      · exact fun same => List.append_inj same (level x List.mem_cons_self)
      · rintro ⟨head,tail⟩
        rw [head,tail]
end Replacement

end BudokaiRuntime.ConditionalLines
