import Mathlib.Data.List.Basic

/-! What a file system with a gate is for: files that keep what was saved under their names, and are
opened only by those whom the file itself lets in. Nothing here knows of a table or of blocks. -/
namespace FileStore

structure File (N C : Type*) where
  name : N
  contents : C

inductive Request (N C K : Type*)
  | save (name : N) (contents : C)
  | read (name : N) (context : K)
  | delete (name : N) (context : K)
  | rename (oldName newName : N) (context : K)

/-- Why a request may be refused. -/
inductive Refusal (E : Type*)
  | taken
  | notFound
  | targetExists
  | denied (e : E)

variable {N C C' K R E : Type*}

/-- The same request about other contents. -/
def Request.map (f : C → C') : Request N C K → Request N C' K
  | .save name contents => .save name (f contents)
  | .read name context => .read name context
  | .delete name context => .delete name context
  | .rename oldName newName context => .rename oldName newName context

def names (files : List (File N C)) : List N := files.map File.name

section

variable [DecidableEq N] (same : N → N → Bool) (openFile : C → K → Except E R)

def rename (oldName newName : N) (f : File N C) : File N C :=
  if f.name = oldName then {f with name := newName} else f

/-- What a file that was found says to a request that would change the files. -/
def gated (f : File N C) (context : K) (files changed : List (File N C)) :
    Except (Refusal E) (Option R) × List (File N C) :=
  match openFile f.contents context with
  | .error e => (.error (.denied e),files)
  | .ok _ => (.ok none,changed)

/-- The answer to a request, and the files after it. A file is read under any name that is the same
as its own, and changed under its own name only. -/
def respond (files : List (File N C)) :
    Request N C K → Except (Refusal E) (Option R) × List (File N C)
  | .save name contents =>
    if name ∈ names files then (.error .taken,files)
    else (.ok none,files ++ [⟨name,contents⟩])
  | .read name context =>
    match files.find? fun f => same f.name name with
    | none => (.error .notFound,files)
    | some f => (((openFile f.contents context).mapError .denied).map some,files)
  | .delete name context =>
    match files.find? fun f => f.name = name with
    | none => (.error .notFound,files)
    | some f => gated openFile f context files (files.filter fun f => f.name ≠ name)
  | .rename oldName newName context =>
    if newName ∈ names files then (.error .targetExists,files)
    else match files.find? fun f => f.name = oldName with
      | none => (.error .notFound,files)
      | some f => gated openFile f context files (files.map (rename oldName newName))

end
end FileStore
