import ThesadaApp.LuaLexer

/-!
The grammar of Lua, as the trees that it derives and the tokens that a tree is written with. It is the part without
loops that count, varargs, and assignments of several variables.
-/

namespace Lua

inductive BinOp where
  | add | sub | mul | div | concat | lt | le | gt | ge | eq | ne | and | or
  deriving DecidableEq

def BinOp.token : BinOp → Token
  | .add => .symbol "+"
  | .sub => .symbol "-"
  | .mul => .symbol "*"
  | .div => .symbol "/"
  | .concat => .symbol ".."
  | .lt => .symbol "<"
  | .le => .symbol "<="
  | .gt => .symbol ">"
  | .ge => .symbol ">="
  | .eq => .symbol "=="
  | .ne => .symbol "~="
  | .and => .keyword "and"
  | .or => .keyword "or"

inductive UnOp where
  | neg | not | len
  deriving DecidableEq

def UnOp.token : UnOp → Token
  | .neg => .symbol "-"
  | .not => .keyword "not"
  | .len => .symbol "#"

mutual

inductive Exp where
  | nil
  | true
  | false
  | number (s : String)
  | string (s : String)
  | function (params : List String) (body : Block)
  | head (h : Head)
  | table
  | binary (op : BinOp) (l r : Exp)
  | unary (op : UnOp) (e : Exp)

/-- What may be indexed and called. -/
inductive Head where
  | name (x : String)
  | paren (e : Exp)
  | index (h : Head) (e : Exp)
  | field (h : Head) (x : String)
  | call (h : Head) (args : Exps)
  | method (h : Head) (x : String) (args : Exps)

inductive Exps where
  | nil
  | cons (e : Exp) (es : Exps)

inductive Stat where
  | assign (x : String) (e : Exp)
  | assignIndex (h : Head) (i e : Exp)
  | call (h : Head) (args : Exps)
  | method (h : Head) (x : String) (args : Exps)
  | local (x : String) (xs : List String) (e : Exp) (es : Exps)
  | localFunction (x : String) (params : List String) (body : Block)
  | doEnd (body : Block)
  | ifThen (e : Exp) (body : Block) (rest : Else)
  | forIn (x : String) (xs : List String) (e : Exp) (es : Exps) (body : Block)

inductive Else where
  | done
  | else (body : Block)
  | elseif (e : Exp) (body : Block) (rest : Else)

inductive Block where
  | nil
  | ret (es : Exps)
  | cons (s : Stat) (b : Block)

end

/-- Names with commas between them. -/
def nameTokens : List String → List Token
  | [] => []
  | [x] => [.name x]
  | x :: xs => .name x :: .symbol "," :: nameTokens xs

mutual

def Exp.tokens : Exp → List Token
  | .nil => [.keyword "nil"]
  | .true => [.keyword "true"]
  | .false => [.keyword "false"]
  | .number s => [.number s]
  | .string s => [.string s]
  | .function params body =>
      [.keyword "function", .symbol "("] ++ nameTokens params ++ [.symbol ")"] ++ body.tokens ++ [.keyword "end"]
  | .head h => h.tokens
  | .table => [.symbol "\x7b", .symbol "\x7d"]
  | .binary op l r => l.tokens ++ [op.token] ++ r.tokens
  | .unary op e => op.token :: e.tokens

def Head.tokens : Head → List Token
  | .name x => [.name x]
  | .paren e => [.symbol "("] ++ e.tokens ++ [.symbol ")"]
  | .index h e => h.tokens ++ [.symbol "["] ++ e.tokens ++ [.symbol "]"]
  | .field h x => h.tokens ++ [.symbol ".", .name x]
  | .call h args => h.tokens ++ [.symbol "("] ++ args.tokens ++ [.symbol ")"]
  | .method h x args => h.tokens ++ [.symbol ":", .name x, .symbol "("] ++ args.tokens ++ [.symbol ")"]

def Exps.tokens : Exps → List Token
  | .nil => []
  | .cons e es => e.tokens ++ es.more

/-- Expressions that follow another. -/
def Exps.more : Exps → List Token
  | .nil => []
  | .cons e es => .symbol "," :: (e.tokens ++ es.more)

def Stat.tokens : Stat → List Token
  | .assign x e => [.name x, .symbol "="] ++ e.tokens
  | .assignIndex h i e => h.tokens ++ [.symbol "["] ++ i.tokens ++ [.symbol "]", .symbol "="] ++ e.tokens
  | .call h args => h.tokens ++ [.symbol "("] ++ args.tokens ++ [.symbol ")"]
  | .method h x args => h.tokens ++ [.symbol ":", .name x, .symbol "("] ++ args.tokens ++ [.symbol ")"]
  | .local x xs e es => .keyword "local" :: nameTokens (x :: xs) ++ [.symbol "="] ++ e.tokens ++ es.more
  | .localFunction x params body =>
      [.keyword "local", .keyword "function", .name x, .symbol "("] ++ nameTokens params ++ [.symbol ")"] ++
        body.tokens ++ [.keyword "end"]
  | .doEnd body => .keyword "do" :: body.tokens ++ [.keyword "end"]
  | .ifThen e body rest => .keyword "if" :: e.tokens ++ [.keyword "then"] ++ body.tokens ++ rest.tokens
  | .forIn x xs e es body =>
      .keyword "for" :: nameTokens (x :: xs) ++ [.keyword "in"] ++ e.tokens ++ es.more ++ [.keyword "do"] ++
        body.tokens ++ [.keyword "end"]

/-- The rest of a conditional, to its `end`. -/
def Else.tokens : Else → List Token
  | .done => [.keyword "end"]
  | .else body => .keyword "else" :: body.tokens ++ [.keyword "end"]
  | .elseif e body rest =>
      .keyword "elseif" :: e.tokens ++ [.keyword "then"] ++ body.tokens ++ rest.tokens

def Block.tokens : Block → List Token
  | .nil => []
  | .ret es => .keyword "return" :: es.tokens
  | .cons s b => s.tokens ++ b.tokens

end

/-- Statements, and the end of the block. -/
def Block.of (ss : List Stat) (last : Block) : Block := ss.foldr Block.cons last

def Exps.of (es : List Exp) : Exps := es.foldr Exps.cons .nil

def Exp.var (x : String) : Exp := .head (.name x)

/-- `x[i]` -/
def Exp.entry (x i : String) : Exp := .head (.index (.name x) (.var i))

/-- `f(…)` -/
def Exp.call (f : String) (args : List Exp) : Exp := .head (.call (.name f) (.of args))

/-- `x.f(…)` -/
def Exp.callField (x f : String) (args : List Exp) : Exp := .head (.call (.field (.name x) f) (.of args))

/-- `x:f(…)` -/
def Exp.method (x f : String) (args : List Exp) : Exp := .head (.method (.name x) f (.of args))

/-- The tokens derive from the grammar. -/
def Valid (ts : List Token) : Prop := ∃ b : Block, b.tokens = ts

end Lua
