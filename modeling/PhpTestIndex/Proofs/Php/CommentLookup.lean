import PhpTestIndex.Php.Document
import PhpTestIndex.Proofs.Php.Comments
import PhpTestIndex.Proofs.Php.CommentTokens

/-! # How a comment is found

The comments of a syntax tree that is in order, and whose comments are tokens, begin at increasing
offsets (`PhpTestIndex.Php.Document.increasing_ofTree`), and the end that is computed for a comment
does not count for that. Halving therefore finds a comment by its offset exactly if one begins there
(`PhpTestIndex.Php.Document.commentAt?_eq_some_iff`), and the documentation of a declaration is the
comment that is the named sibling directly before it
(`PhpTestIndex.Php.Document.docBlock?_eq_some_iff`). The document of such a tree finds its comments
(`PhpTestIndex.Php.Document.findsComments_ofTree`).
-/

namespace PhpTestIndex.Php

namespace Node

/-- The comments in some nodes are those in each of them, in order. -/
theorem siblingsComments_eq (siblings : List Node) :
    siblingsComments siblings = siblings.flatMap comments := by
  induction siblings with
  | nil => rfl
  | cons node rest ih => rw [siblingsComments, ih, List.flatMap_cons]

/-- A comment is the only comment in itself; any other node has the comments of its children. -/
theorem comments_eq (node : Node) :
    node.comments = if node.kind = .comment then [node] else node.children.flatMap comments := by
  rw [← siblingsComments_eq]
  cases node
  rfl

/-- The last of some siblings that is more than a sign or a keyword. -/
def lastNamed (siblings : List Node) : Option Node :=
  (siblings.filter fun sibling => sibling.kind.isNamed).getLast?

/-- The node stands in the tree, after the last named one of the siblings before it. -/
inductive HasPlaced (root : Node) : Placed → Prop
  | root : HasPlaced root ⟨none, root⟩
  | child {parent node : Node} {earlier later : List Node} (inside : root.Inside parent)
      (children : parent.children = earlier ++ node :: later) :
      HasPlaced root ⟨lastNamed earlier, node⟩

variable {root node : Node}

theorem mem_of_lastNamed {siblings : List Node} (last : node ∈ lastNamed siblings) :
    node ∈ siblings :=
  (List.mem_filter.mp (List.mem_of_getLast? last)).1

/-- The named sibling before a node stands in the tree, too. -/
theorem HasPlaced.inside_before {placed : Placed} {before : Node} (stands : root.HasPlaced placed)
    (follows : before ∈ placed.before) : root.Inside before := by
  cases stands with
  | root => cases follows
  | child inside children =>
      refine inside.child ?_
      rw [children]
      exact List.mem_append_left _ (mem_of_lastNamed follows)

/-- **Each comment is gathered once.** Of a tree whose comments are tokens, all nodes that are
comments are gathered, in source order. -/
theorem CommentsAreTokens.comments_eq_filter (tokens : root.CommentsAreTokens) :
    root.comments = root.nodes.filter fun node => node.kind = .comment := by
  induction root using induction_children with
  | step root ih =>
      rw [comments_eq, nodes_eq]
      split
      · rename_i comment
        have leaf := (commentsAreTokens_iff.mp tokens).1 comment |>.leaf
        simp [comment, leaf]
      · rename_i other
        rw [List.filter_cons_of_neg (by simpa using other), List.filter_flatMap]
        refine List.flatMap_congr fun child among => ?_
        exact ih child among (tokens.child among)

/-- If comments are tokens, then gathering them without looking into comments misses none. -/
theorem mem_comments_iff (tokens : root.CommentsAreTokens) :
    node ∈ root.comments ↔ root.Inside node ∧ node.kind = .comment := by
  rw [tokens.comments_eq_filter, List.mem_filter, mem_nodes_iff, decide_eq_true_iff]

/-- In a tree that is in order, each comment ends before the next ones begin. -/
theorem Ordered.pairwise_comments (ordered : root.Ordered) :
    root.comments.Pairwise fun first second => first.stop.offset ≤ second.start.offset := by
  induction root using induction_children with
  | step root ih =>
      have children := ordered.inside
      rw [comments_eq]
      split
      · exact List.pairwise_singleton _ _
      · refine List.pairwise_flatMap.mpr ⟨fun child among => ?_, ?_⟩
        · exact ih child among (children.bounds among).2.1
        · refine children.pairwise.imp_of_mem fun {left right} amongLeft amongRight apart => ?_
          intro first inLeft second inRight
          have before := (inside_of_mem_comments inLeft).1.within (children.bounds amongLeft).2.1
          have after := (inside_of_mem_comments inRight).1.within (children.bounds amongRight).2.1
          exact before.2.2.trans (apart.trans after.1)

/-- The comments of a tree begin one after the other, as none of them is empty. -/
theorem Ordered.increasing_comments (ordered : root.Ordered) (tokens : root.CommentsAreTokens) :
    root.comments.Pairwise fun first second => first.start.offset < second.start.offset := by
  refine ordered.pairwise_comments.imp_of_mem fun {first _} among _ apart => ?_
  obtain ⟨inside, comment⟩ := (mem_comments_iff tokens).mp among
  exact (tokens first (mem_nodes_of_inside inside) comment).nonempty.trans_le apart

end Node

theorem EndsWithBreak.eq_of_mem {kept lineBreak : List Char} (ends : EndsWithBreak kept lineBreak)
    {c : Char} (among : c ∈ lineBreak) : c = '\r' ∨ c = '\n' := by
  cases ends <;> simp_all

namespace Comment

/-- The line break at the end of a comment does not count for whether it is documentation. -/
theorem isDocBlock_normalize (comment : Comment) :
    comment.normalize.isDocBlock ↔ "/**".toList <+: comment.text := by
  obtain ⟨lineBreak, whole, ends⟩ := exists_lineBreak comment.text
  rw [isDocBlock, List.isPrefixOf_iff_prefix, normalize_text]
  refine ⟨fun kept => whole ▸ kept.trans (List.prefix_append _ _), fun starts => ?_⟩
  rw [whole] at starts
  rcases List.prefix_or_prefix_of_prefix starts (List.prefix_append _ _) with kept | ⟨more, sign⟩
  · exact kept
  · -- What the line break has of the sign is nothing.
    rw [← sign, List.prefix_append_right_inj] at starts
    have nothing : more = [] := by
      refine List.eq_nil_iff_forall_not_mem.mpr fun c inMore => ?_
      have inSign : c ∈ "/**".toList := sign ▸ List.mem_append_right _ inMore
      rcases ends.eq_of_mem (starts.subset inMore) with rfl | rfl
      · exact absurd inSign (by decide)
      · exact absurd inSign (by decide)
    have same : withoutLineBreak comment.text = "/**".toList := by
      rw [← sign, nothing, List.append_nil]
    exact same ▸ List.prefix_rfl

end Comment

namespace Document

/-- Each comment begins before the next ones. -/
def Increasing (comments : Array Comment) : Prop :=
  comments.toList.Pairwise fun first second => first.span.start.offset < second.span.start.offset

section Search

variable {comments : Array Comment} {first second : Nat} {earlier later : Comment}

/-- Of two comments in increasing order, the one further on starts later. -/
theorem Increasing.lt (increasing : Increasing comments) (before : first < second)
    (isEarlier : comments[first]? = some earlier) (isLater : comments[second]? = some later) :
    earlier.span.start.offset < later.span.start.offset := by
  obtain ⟨inFirst, rfl⟩ := Array.getElem?_eq_some_iff.mp isEarlier
  obtain ⟨inSecond, rfl⟩ := Array.getElem?_eq_some_iff.mp isLater
  exact List.pairwise_iff_getElem.mp increasing first second inFirst inSecond before

/-- Of increasing comments, the one that begins first stands first. -/
theorem Increasing.lt_of_offset_lt (increasing : Increasing comments)
    (isEarlier : comments[first]? = some earlier) (isLater : comments[second]? = some later)
    (before : earlier.span.start.offset < later.span.start.offset) : first < second := by
  rcases Nat.lt_trichotomy first second with less | rfl | more
  · exact less
  · obtain rfl : earlier = later := Option.some.inj (isEarlier.symm.trans isLater)
    exact absurd before (Nat.lt_irrefl _)
  · exact absurd before (Nat.lt_asymm (increasing.lt more isLater isEarlier))

/-- No two comments begin at one offset. -/
theorem Increasing.index_eq (increasing : Increasing comments)
    (isEarlier : comments[first]? = some earlier) (isLater : comments[second]? = some later)
    (same : earlier.span.start.offset = later.span.start.offset) : first = second := by
  rcases Nat.lt_trichotomy first second with less | equal | more
  · exact absurd same (increasing.lt less isEarlier isLater).ne
  · exact equal
  · exact absurd same (increasing.lt more isLater isEarlier).ne'

/-- **Halving is exact.** Among increasing comments, the one is found that begins at the offset, if
there is one in the range that is searched. -/
theorem Increasing.searchComments_eq_some_iff (increasing : Increasing comments)
    {offset low high : Nat} {comment : Comment} (within : high ≤ comments.size) :
    searchComments comments offset low high = some comment ↔
      ∃ index, low ≤ index ∧ index < high ∧ comments[index]? = some comment ∧
        comment.span.start.offset = offset := by
  fun_induction searchComments comments offset low high with
  | case1 low high some' middle missing =>
      have beyond := Array.getElem?_eq_none_iff.mp missing
      omega
  | case2 low high some' middle found isMiddle begins =>
      constructor
      · rintro ⟨⟩
        exact ⟨middle, by omega, by omega, isMiddle, begins⟩
      · rintro ⟨index, _, _, isIndex, beginsToo⟩
        obtain rfl := increasing.index_eq isMiddle isIndex (begins.trans beginsToo.symm)
        exact isMiddle.symm.trans isIndex
  | case3 low high some' middle found isMiddle other smaller ih =>
      rw [ih within]
      constructor
      · rintro ⟨index, above, below, rest⟩
        exact ⟨index, by omega, below, rest⟩
      · rintro ⟨index, above, below, isIndex, begins⟩
        have after : middle < index :=
          increasing.lt_of_offset_lt isMiddle isIndex (smaller.trans_eq begins.symm)
        exact ⟨index, after, below, isIndex, begins⟩
  | case4 low high some' middle found isMiddle other larger ih =>
      rw [ih (by omega)]
      constructor
      · rintro ⟨index, above, below, rest⟩
        exact ⟨index, above, by omega, rest⟩
      · rintro ⟨index, above, below, isIndex, begins⟩
        have before : index < middle :=
          increasing.lt_of_offset_lt isIndex isMiddle (by omega)
        exact ⟨index, above, before, isIndex, begins⟩
  | case5 low high nothing =>
      constructor
      · rintro ⟨⟩
      · rintro ⟨index, above, below, _⟩
        omega

end Search

variable {document : Document}

/-- A comment is found at an offset exactly if it begins there. -/
theorem commentAt?_eq_some_iff (increasing : Increasing document.comments) {offset : Nat}
    {comment : Comment} : document.commentAt? offset = some comment ↔
      comment ∈ document.comments ∧ comment.span.start.offset = offset := by
  rw [commentAt?, increasing.searchComments_eq_some_iff le_rfl, Array.mem_iff_getElem?]
  constructor
  · rintro ⟨index, _, _, isComment, begins⟩
    exact ⟨⟨index, isComment⟩, begins⟩
  · rintro ⟨⟨index, isComment⟩, begins⟩
    obtain ⟨within, _⟩ := Array.getElem?_eq_some_iff.mp isComment
    exact ⟨index, Nat.zero_le _, within, isComment, begins⟩

section Trees

variable {code : List Char} {root : Node}

/-- The comments of a document are the comments of its tree, each without its line break. -/
theorem mem_comments_ofTree {comment : Comment} : comment ∈ (ofTree code root).comments ↔
    ∃ node ∈ root.comments, (Comment.ofNode code node).normalize = comment := by
  rw [ofTree, List.mem_toArray, List.mem_map]

/-- Without the line breaks at their ends the comments begin where they did. -/
theorem increasing_ofTree (ordered : root.Ordered) (tokens : root.CommentsAreTokens) :
    Increasing (ofTree code root).comments := by
  refine List.pairwise_map.mpr ((ordered.increasing_comments tokens).imp ?_)
  intro first second before
  rw [Comment.normalize_start, Comment.normalize_start]
  exact before

/-- Where a comment begins, the comment is found. -/
theorem commentAt?_start (ordered : root.Ordered) (tokens : root.CommentsAreTokens) {node : Node}
    (inside : root.Inside node) (comment : node.kind = .comment) :
    (ofTree code root).commentAt? node.start.offset =
      some (Comment.ofNode code node).normalize := by
  refine (commentAt?_eq_some_iff (increasing_ofTree ordered tokens)).mpr ⟨?_, ?_⟩
  · exact mem_comments_ofTree.mpr ⟨node, (Node.mem_comments_iff tokens).mpr ⟨inside, comment⟩, rfl⟩
  · rw [Comment.normalize_start]
    rfl

/-- **The comment before a declaration documents it.** A declaration has documentation exactly if
the named sibling directly before it is a comment that begins with the sign of documentation, and it
is what remains of that comment. -/
theorem docBlock?_eq_some_iff (ordered : root.Ordered) (tokens : root.CommentsAreTokens)
    {declaration : Placed} (stands : root.HasPlaced declaration) {block : List Char} :
    (ofTree code root).docBlock? declaration = some block ↔
      ∃ before ∈ declaration.before, before.kind = .comment ∧
        "/**".toList <+: before.text code ∧
        block = (Comment.ofNode code before).normalize.text := by
  unfold docBlock?
  cases follows : declaration.before with
  | none => simp
  | some before =>
      simp only [Option.mem_def, Option.some.injEq, exists_eq_left']
      by_cases comment : before.kind = .comment
      · have found : (ofTree code root).commentAt? before.start.offset = _ :=
          commentAt?_start ordered tokens (stands.inside_before follows) comment
        rw [if_pos comment, found, Option.map_eq_some_iff]
        simp only [Option.filter_eq_some_iff, Option.some.injEq, comment, true_and]
        constructor
        · rintro ⟨_, ⟨rfl, isDoc⟩, rfl⟩
          exact ⟨(Comment.isDocBlock_normalize _).mp isDoc, rfl⟩
        · rintro ⟨starts, rfl⟩
          exact ⟨_, ⟨rfl, (Comment.isDocBlock_normalize _).mpr starts⟩, rfl⟩
      · simp [comment]

end Trees

/-- A document has all comments of its tree, and finds them where they begin. -/
structure FindsComments (document : Document) : Prop where
  /-- The comments are those of the tree in source order, each without the line break at its end. -/
  gathered : document.comments.toList =
    (document.root.nodes.filter fun node => node.kind = .comment).map fun node =>
      (Comment.ofNode document.code node).normalize
  increasing : Increasing document.comments
  /-- Each comment of the tree stands at one place among the comments. -/
  once : ∀ node, document.root.Inside node → node.kind = .comment →
    ∃! index : Nat,
      document.comments[index]? = some (Comment.ofNode document.code node).normalize
  /-- What is found at an offset is the comment that begins there. -/
  found : ∀ (offset : Nat) (comment : Comment), document.commentAt? offset = some comment ↔
    comment ∈ document.comments ∧ comment.span.start.offset = offset
  /-- The documentation of a declaration is what remains of the comment directly before it, if that
  begins with the sign of documentation. -/
  documents : ∀ (declaration : Placed), document.root.HasPlaced declaration →
    ∀ block : List Char, document.docBlock? declaration = some block ↔
      ∃ before ∈ declaration.before, before.kind = .comment ∧
        "/**".toList <+: before.text document.code ∧
        block = (Comment.ofNode document.code before).normalize.text

/-- **Comments are found exactly.** The document of a tree that is in order and whose comments are
tokens finds its comments. -/
theorem findsComments_ofTree {code : List Char} {root : Node} (ordered : root.Ordered)
    (tokens : root.CommentsAreTokens) : (ofTree code root).FindsComments := by
  have increasing : Increasing (ofTree code root).comments := increasing_ofTree ordered tokens
  refine ⟨?_, increasing, fun node inside comment => ?_, fun offset comment =>
    commentAt?_eq_some_iff increasing, fun declaration stands block =>
    docBlock?_eq_some_iff ordered tokens stands⟩
  · exact congrArg (List.map fun node => (Comment.ofNode code node).normalize)
      tokens.comments_eq_filter
  · have member : (Comment.ofNode code node).normalize ∈ (ofTree code root).comments :=
      mem_comments_ofTree.mpr ⟨node, (Node.mem_comments_iff tokens).mpr ⟨inside, comment⟩, rfl⟩
    obtain ⟨index, isIndex⟩ := Array.mem_iff_getElem?.mp member
    exact ⟨index, isIndex, fun other isOther => increasing.index_eq isOther isIndex rfl⟩

end Document

end PhpTestIndex.Php
