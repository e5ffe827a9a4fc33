import Stencil.Text.Basic

/-!
# Template trees

## Nodes

A template is a list of nodes: literal text, a print of a name, the embedding of
another template, and blocks, which guard or repeat the nodes inside them.
-/

namespace Stencil

inductive BlockKind where
  /-- repeats them for each element of a list -/
  | each
  /-- keeps them if its name is bound -/
  | defined
  /-- keeps them if its name is not bound -/
  | undefined
  /-- renders them with a map as the innermost scope -/
  | within
deriving DecidableEq

inductive Node where
  | text (s : Text)
  | print (name : Text)
  | embed (name : Text)
  | block (kind : BlockKind) (name : Text) (children : List Node)

namespace Node

mutual

def decideEq : (a b : Node) -> Decidable (a = b)
  | text s, text t =>
      if h : s = t then isTrue (h ▸ rfl)
      else isFalse fun heq => h (Node.text.inj heq)
  | print m, print n =>
      if h : m = n then isTrue (h ▸ rfl)
      else isFalse fun heq => h (Node.print.inj heq)
  | embed m, embed n =>
      if h : m = n then isTrue (h ▸ rfl)
      else isFalse fun heq => h (Node.embed.inj heq)
  | block j m as, block k n bs =>
      if hkind : j = k then
        if hname : m = n then
          match decideEqAll as bs with
          | isTrue h => isTrue (by rw [hkind, hname, h])
          | isFalse h => isFalse fun heq => h (Node.block.inj heq).2.2
        else isFalse fun heq => hname (Node.block.inj heq).2.1
      else isFalse fun heq => hkind (Node.block.inj heq).1
  | text _, print _ => isFalse fun heq => nomatch heq
  | text _, embed _ => isFalse fun heq => nomatch heq
  | text _, block _ _ _ => isFalse fun heq => nomatch heq
  | print _, text _ => isFalse fun heq => nomatch heq
  | print _, embed _ => isFalse fun heq => nomatch heq
  | print _, block _ _ _ => isFalse fun heq => nomatch heq
  | embed _, text _ => isFalse fun heq => nomatch heq
  | embed _, print _ => isFalse fun heq => nomatch heq
  | embed _, block _ _ _ => isFalse fun heq => nomatch heq
  | block _ _ _, text _ => isFalse fun heq => nomatch heq
  | block _ _ _, print _ => isFalse fun heq => nomatch heq
  | block _ _ _, embed _ => isFalse fun heq => nomatch heq

def decideEqAll : (as bs : List Node) -> Decidable (as = bs)
  | [], [] => isTrue rfl
  | a :: as, b :: bs =>
      match decideEq a b with
      | isTrue hhead =>
          match decideEqAll as bs with
          | isTrue htail => isTrue (by rw [hhead, htail])
          | isFalse htail => isFalse fun heq => htail (List.cons.inj heq).2
      | isFalse hhead => isFalse fun heq => hhead (List.cons.inj heq).1
  | [], _ :: _ => isFalse fun heq => nomatch heq
  | _ :: _, [] => isFalse fun heq => nomatch heq

end

instance : DecidableEq Node := decideEq

mutual

def depth : Node -> Nat
  | block _ _ children => depthAll children + 1
  | _ => 0

def depthAll : List Node -> Nat
  | [] => 0
  | node :: rest => max (depth node) (depthAll rest)

end

end Node

end Stencil
