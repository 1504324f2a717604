import Templating.Analysis
import Templating.Ast
import Templating.Build.Run

/-!
From a template to its tree: as written (`readForest`), or analysed and with a single root (`parse`).
-/
namespace Templating

structure Forest where
  arena : Arena
  roots : List NodeId
  deriving DecidableEq, Repr

def Forest.trees? (forest : Forest) : Option (List Tree) := forest.arena.forest? forest.roots

def Build.forest {σ : Type} (b : Build σ) : Forest := ⟨b.builder.arena, b.builder.roots⟩

def buildWith {σ : Type} (options : Options) (receiver : Receiver σ) (state : σ) (source : List Char) :
    Except (Halt (Build σ)) (Build σ) :=
  (Build.ofSource source state).run options.comments receiver

def forestOf {σ : Type} : Except (Halt (Build σ)) (Build σ) → Except CompileError Forest
  | .ok b => .ok b.forest
  | .error halt => .error halt.cause

def readForest (options : Options) (template : String) : Except CompileError Forest :=
  forestOf (buildWith options Receiver.silent () template.toList)

def analyse (options : Options) (template : String) : Except CompileError Forest :=
  forestOf (buildWith options (Analysis.receiver options template.toList) Analysis.start template.toList)

def singleRoot : List NodeId → Except CompileError NodeId
  | [root] => .ok root
  | roots => .error (.rootNodeCount roots.length)

def parseWith (options : Options) (template : String) : Except CompileError Ast := do
  let forest ← analyse options template
  let root ← singleRoot forest.roots
  return ⟨forest.arena, root⟩

def parse (template : String) : Except CompileError Ast := parseWith Options.standard template

structure Compiled where
  ast : Ast
  deriving DecidableEq, Repr

def compile (template : String) : Except CompileError Compiled := (parse template).map Compiled.mk

def Compiled.json? (compiled : Compiled) : Option Json := compiled.ast.json?.map fun ast => .object [("ast", ast)]

end Templating
