import ZephirPhp.Proofs.Program.Bindings

/-! # Surveys of programs

A survey goes through everything that a program is made of, in the order in which
emission comes to it, and collects something on its way. It has a context, which changes
where names are bound and where a closure begins. What belongs to a construct itself is
said by the survey, so one recursion serves whatever is to be listed of a program.
-/

namespace ZephirPhp

/-- What a survey comes to. -/
inductive Item where
  | expr (expression : Expr)
  | parameter (parameter : Parameter)
  | assignment (assignment : Assignment)
  | stmt (statement : Stmt)
  | declaration (declaration : Declaration)
  | handler (handler : Handler)
  | constant (constant : Constant)
  | property (property : Property)
  | method (method : Method)
  | entry (entry : Entry)

/-- What opens a body inside another one. -/
inductive Opening where
  | closure (location : Location) (parameters : List String)
  | arrow (location : Location) (parameter : String)

/-- The names that are bound at the start of the body. -/
def Opening.bound (outer : List String) : Opening → List String
  | .closure _ parameters => boundInClosure outer parameters
  | .arrow _ parameter => [parameter]

structure Survey (γ α : Type) where
  bind : List String → γ → γ
  enter : Opening → γ → γ
  /-- What an item amounts to, with what has been collected inside it. -/
  collect : γ → Item → List α → List α

namespace Survey

variable {γ α : Type}

/-- A survey that does not depend on where things stand. -/
def ofCollect (collect : Item → List α → List α) : Survey Unit α where
  bind _ context := context
  enter _ context := context
  collect _ := collect

variable (survey : Survey γ α)

/-! ## Expressions and statements -/

mutual

def ofExpr (context : γ) (expression : Expr) : List α :=
  survey.collect context (.expr expression) <|
    match expression with
    | .atom _ _ => []
    | .array _ items => ofItems context items
    | .unary _ _ operand => ofExpr context operand
    | .binary _ _ left right => ofExpr context left ++ ofExpr context right
    | .range _ _ first last => ofExpr context first ++ ofExpr context last
    | .property _ object _ => ofExpr context object
    | .dynamicProperty _ object name => ofExpr context object ++ ofExpr context name
    | .stringProperty _ object _ => ofExpr context object
    | .index _ array index => ofExpr context array ++ ofExpr context index
    | .methodCall _ receiver _ arguments =>
      ofExpr context receiver ++ ofExprs context arguments
    | .functionCall _ _ arguments => ofExprs context arguments
    | .staticCall _ _ _ arguments => ofExprs context arguments
    | .new _ _ _ arguments => ofExprs context arguments
    | .cast _ _ operand => ofExpr context operand
    | .typeHint _ _ operand => ofExpr context operand
    | .ternary _ condition consequence alternative =>
      ofExpr context condition ++
        (ofExpr context consequence ++ ofExpr context alternative)
    | .closure location parameters body =>
      ofParameters context parameters ++
        ofBlock (survey.enter (.closure location (parameters.map (·.name))) context) body
    | .arrow location parameter body =>
      ofExpr (survey.enter (.arrow location parameter) context) body
    | .fetch _ _ source => ofExpr context source
termination_by structural expression

def ofExprs (context : γ) : List Expr → List α
  | [] => []
  | expression :: rest => ofExpr context expression ++ ofExprs context rest
termination_by structural expressions => expressions

/-- The value of an item comes before its key. -/
def ofItem (context : γ) : ArrayItem → List α
  | ⟨some key, value⟩ => ofExpr context value ++ ofExpr context key
  | ⟨none, value⟩ => ofExpr context value
termination_by structural item => item

def ofItems (context : γ) : List ArrayItem → List α
  | [] => []
  | item :: rest => ofItem context item ++ ofItems context rest
termination_by structural items => items

def ofParameter (context : γ) (parameter : Parameter) : List α :=
  survey.collect context (.parameter parameter) <|
    match parameter with
    | ⟨_, some default, _⟩ => ofExpr context default
    | ⟨_, none, _⟩ => []
termination_by structural parameter

def ofParameters (context : γ) : List Parameter → List α
  | [] => []
  | parameter :: rest => ofParameter context parameter ++ ofParameters context rest
termination_by structural parameters => parameters

def ofAssignment (context : γ) (assignment : Assignment) : List α :=
  survey.collect context (.assignment assignment) <|
    match assignment with
    | ⟨form, _, target, _, index, some value, _⟩ =>
      let inside := survey.bind (boundByForm form target) context
      ofExprs inside index ++ ofExpr inside value
    | ⟨form, _, target, _, index, none, _⟩ =>
      ofExprs (survey.bind (boundByForm form target) context) index
termination_by structural assignment

/-- An assignment binds its variable before its other parts are looked at. -/
def ofAssignments (context : γ) : List Assignment → List α
  | [] => []
  | assignment :: rest =>
    ofAssignment context assignment ++
      ofAssignments (survey.bind (boundByForm assignment.form assignment.target) context)
        rest
termination_by structural assignments => assignments

def ofStmt (context : γ) (statement : Stmt) : List α :=
  survey.collect context (.stmt statement) <|
    match statement with
    | .assign _ assignments => ofAssignments context assignments
    | .declare _ declarations => ofDeclarations context declarations
    | .expression _ expression => ofExpr context expression
    | .cond _ condition body alternatives (some otherwise) =>
      let inBody := survey.bind condition.fetched context
      let afterBody := survey.bind (Noting.names.ofBlock body) inBody
      ofExpr context condition ++
        (ofBlock inBody body ++ (ofBranches afterBody alternatives ++
        ofBlock (survey.bind (Noting.names.ofBranches alternatives) afterBody) otherwise))
    | .cond _ condition body alternatives none =>
      let inBody := survey.bind condition.fetched context
      ofExpr context condition ++ (ofBlock inBody body ++
        ofBranches (survey.bind (Noting.names.ofBlock body) inBody) alternatives)
    | .loop _ body => ofBlock context body
    | .whileLoop _ condition body => ofExpr context condition ++ ofBlock context body
    | .doWhile _ body condition =>
      ofBlock context body ++
        ofExpr (survey.bind (Noting.names.ofBlock body) context) condition
    | .forEach _ key value _ source body =>
      ofExpr context source ++ ofBlock (survey.bind (boundByLoop key value) context) body
    | .switch _ subject clauses => ofExpr context subject ++ ofClauses context clauses
    | .continueLoop _ => []
    | .breakLoop _ => []
    | .returnValue _ (some value) => ofExpr context value
    | .returnValue _ none => []
    | .throwValue _ value => ofExpr context value
    | .unset _ target => ofExpr context target
    | .echo _ values => ofExprs context values
    | .require _ file => ofExpr context file
    | .tryCatch _ body handlers =>
      ofBlock context body ++
        ofHandlers (survey.bind (Noting.names.ofBlock body) context) handlers
    | .comment _ _ => []
    | .empty _ => []
termination_by structural statement

def ofBlock (context : γ) : List Stmt → List α
  | [] => []
  | statement :: rest =>
    ofStmt context statement ++
      ofBlock (survey.bind (Noting.names.ofStmt statement) context) rest
termination_by structural statements => statements

/-- A variable is declared before its first value is looked at. -/
def ofDeclaration (context : γ) (declaration : Declaration) : List α :=
  survey.collect context (.declaration declaration) <|
    match declaration with
    | ⟨name, some value⟩ => ofExpr (survey.bind [name] context) value
    | ⟨_, none⟩ => []
termination_by structural declaration

def ofDeclarations (context : γ) : List Declaration → List α
  | [] => []
  | declaration :: rest =>
    ofDeclaration context declaration ++
      ofDeclarations (survey.bind [declaration.name] context) rest
termination_by structural declarations => declarations

def ofBranch (context : γ) : Branch → List α
  | ⟨condition, body⟩ =>
    ofExpr context condition ++ ofBlock (survey.bind condition.fetched context) body
termination_by structural branch => branch

def ofBranches (context : γ) : List Branch → List α
  | [] => []
  | branch :: rest =>
    ofBranch context branch ++ ofBranches (survey.bind (Noting.names.ofBlock branch.body)
      (survey.bind branch.condition.fetched context)) rest
termination_by structural branches => branches

def ofClause (context : γ) : Clause → List α
  | .case test body => ofExpr context test ++ ofBlock context body
  | .default body => ofBlock context body
termination_by structural clause => clause

def ofClauses (context : γ) : List Clause → List α
  | [] => []
  | clause :: rest =>
    ofClause context clause ++
      ofClauses (survey.bind (Noting.names.ofBlock clause.body) context) rest
termination_by structural clauses => clauses

def ofHandler (context : γ) (handler : Handler) : List α :=
  survey.collect context (.handler handler) <|
    match handler with
    | ⟨_, caught, body⟩ => ofBlock (survey.bind caught.toList context) body
termination_by structural handler

def ofHandlers (context : γ) : List Handler → List α
  | [] => []
  | handler :: rest =>
    ofHandler context handler ++
      ofHandlers (survey.bind (Noting.names.ofBlock handler.body)
      (survey.bind handler.caught.toList context)) rest
termination_by structural handlers => handlers

end

/-! ## Definitions -/

def ofConstant (context : γ) (constant : Constant) : List α :=
  survey.collect context (.constant constant) (survey.ofExpr context constant.value)

def ofProperty (context : γ) (property : Property) : List α :=
  survey.collect context (.property property)
    (survey.ofExprs context property.default.toList)

/-- The body of a method or a function, after its parameters. -/
def ofBody (context : γ) (parameters : List Parameter) (statements : List Stmt) :
    List α :=
  survey.ofParameters context parameters ++ survey.ofBlock context statements

def ofMethod (context : γ) (method : Method) : List α :=
  survey.collect context (.method method)
    (survey.ofBody context method.parameters (method.statements.getD []))

/-- The context of a body follows from the names that are bound at its start. Outside of
bodies nothing is bound. -/
def ofMembers (start : List String → γ) (constants : List Constant)
    (properties : List Property) (methods : List Method) : List α :=
  constants.flatMap (survey.ofConstant (start [])) ++
    (properties.flatMap (survey.ofProperty (start [])) ++
      methods.flatMap fun method => survey.ofMethod (start method.bound) method)

def ofEntry (start : List String → γ) (entry : Entry) : List α :=
  survey.collect (start []) (.entry entry) <|
    match entry with
    | .comment _ _ => []
    | .namespaceName _ _ => []
    | .imports _ _ => []
    | .classDefinition definition =>
      survey.ofMembers start definition.constants definition.properties definition.methods
    | .interfaceDefinition definition =>
      survey.ofMembers start definition.constants [] definition.methods
    | .functionDefinition definition =>
      survey.ofBody (start (definition.parameters.map (·.name))) definition.parameters
        definition.statements
    | .statement included => survey.ofStmt (start []) included

def ofProgram (start : List String → γ) (program : Program) : List α :=
  program.entries.flatMap (survey.ofEntry start)

/-! ## Surveys that are alike -/

/-- Two surveys whose contexts stay related, and with them what the surveys collect. -/
structure Alike {δ β : Type} (first : Survey γ α) (second : Survey δ β)
    (contexts : γ → δ → Prop) (lists : List α → List β → Prop) : Prop where
  nil : lists [] []
  append {start rest : List α} {others more : List β} (starts : lists start others)
    (rests : lists rest more) : lists (start ++ rest) (others ++ more)
  bind {context : γ} {other : δ} (names : List String) (here : contexts context other) :
    contexts (first.bind names context) (second.bind names other)
  enter {context : γ} {other : δ} (opening : Opening) (here : contexts context other) :
    contexts (first.enter opening context) (second.enter opening other)
  collect {context : γ} {other : δ} {inside : List α} {others : List β} (item : Item)
    (here : contexts context other) (parts : lists inside others) :
    lists (first.collect context item inside) (second.collect other item others)

namespace Alike

variable {δ β : Type} {first : Survey γ α} {second : Survey δ β} {contexts : γ → δ → Prop}
  {lists : List α → List β → Prop}

mutual

theorem ofExpr (alike : Alike first second contexts lists) {context : γ} {other : δ}
    (here : contexts context other) (expression : Expr) :
    lists (first.ofExpr context expression) (second.ofExpr other expression) := by
  rw [Survey.ofExpr.eq_def, Survey.ofExpr.eq_def]
  apply alike.collect (.expr expression) here
  cases expression with
  | atom location leaf => exact alike.nil
  | array location items => exact ofItems alike here items
  | unary location operator operand => exact ofExpr alike here operand
  | binary location operator left right =>
      exact alike.append (ofExpr alike here left) (ofExpr alike here right)
  | range location inclusive start last =>
      exact alike.append (ofExpr alike here start) (ofExpr alike here last)
  | property location object name => exact ofExpr alike here object
  | dynamicProperty location object name =>
      exact alike.append (ofExpr alike here object) (ofExpr alike here name)
  | stringProperty location object name => exact ofExpr alike here object
  | index location array index =>
      exact alike.append (ofExpr alike here array) (ofExpr alike here index)
  | methodCall location receiver method arguments =>
      exact alike.append (ofExpr alike here receiver) (ofExprs alike here arguments)
  | functionCall location function arguments => exact ofExprs alike here arguments
  | staticCall location className method arguments => exact ofExprs alike here arguments
  | new location className dynamic arguments => exact ofExprs alike here arguments
  | cast location type operand => exact ofExpr alike here operand
  | typeHint location type operand => exact ofExpr alike here operand
  | ternary location condition consequence alternative =>
      exact alike.append (ofExpr alike here condition)
        (alike.append (ofExpr alike here consequence) (ofExpr alike here alternative))
  | closure location parameters body =>
      exact alike.append (ofParameters alike here parameters)
        (ofBlock alike (alike.enter _ here) body)
  | arrow location parameter body => exact ofExpr alike (alike.enter _ here) body
  | fetch location target source => exact ofExpr alike here source
termination_by structural expression

theorem ofExprs (alike : Alike first second contexts lists) {context : γ} {other : δ}
    (here : contexts context other) (expressions : List Expr) :
    lists (first.ofExprs context expressions) (second.ofExprs other expressions) := by
  cases expressions with
  | nil => exact alike.nil
  | cons expression rest =>
      exact alike.append (ofExpr alike here expression) (ofExprs alike here rest)
termination_by structural expressions

theorem ofItem (alike : Alike first second contexts lists) {context : γ} {other : δ}
    (here : contexts context other) (item : ArrayItem) :
    lists (first.ofItem context item) (second.ofItem other item) := by
  rcases item with ⟨_ | key, value⟩
  · exact ofExpr alike here value
  · exact alike.append (ofExpr alike here value) (ofExpr alike here key)
termination_by structural item

theorem ofItems (alike : Alike first second contexts lists) {context : γ} {other : δ}
    (here : contexts context other) (items : List ArrayItem) :
    lists (first.ofItems context items) (second.ofItems other items) := by
  cases items with
  | nil => exact alike.nil
  | cons item rest =>
      exact alike.append (ofItem alike here item) (ofItems alike here rest)
termination_by structural items

theorem ofParameter (alike : Alike first second contexts lists) {context : γ} {other : δ}
    (here : contexts context other) (parameter : Parameter) :
    lists (first.ofParameter context parameter) (second.ofParameter other parameter) := by
  rcases parameter with ⟨name, _ | default, byReference⟩
  · exact alike.collect _ here alike.nil
  · exact alike.collect _ here (ofExpr alike here default)
termination_by structural parameter

theorem ofParameters (alike : Alike first second contexts lists) {context : γ} {other : δ}
    (here : contexts context other) (parameters : List Parameter) :
    lists (first.ofParameters context parameters)
      (second.ofParameters other parameters) := by
  cases parameters with
  | nil => exact alike.nil
  | cons parameter rest =>
      exact alike.append (ofParameter alike here parameter) (ofParameters alike here rest)
termination_by structural parameters

theorem ofAssignment (alike : Alike first second contexts lists) {context : γ}
    {other : δ} (here : contexts context other) (assignment : Assignment) :
    lists (first.ofAssignment context assignment)
      (second.ofAssignment other assignment) := by
  rcases assignment with ⟨form, operator, target, property, index, _ | value, location⟩
  · exact alike.collect _ here (ofExprs alike (alike.bind _ here) index)
  · exact alike.collect _ here (alike.append (ofExprs alike (alike.bind _ here) index)
      (ofExpr alike (alike.bind _ here) value))
termination_by structural assignment

theorem ofAssignments (alike : Alike first second contexts lists) {context : γ}
    {other : δ} (here : contexts context other) (assignments : List Assignment) :
    lists (first.ofAssignments context assignments)
      (second.ofAssignments other assignments) := by
  cases assignments with
  | nil => exact alike.nil
  | cons assignment rest =>
      exact alike.append (ofAssignment alike here assignment)
        (ofAssignments alike (alike.bind _ here) rest)
termination_by structural assignments

theorem ofStmt (alike : Alike first second contexts lists) {context : γ} {other : δ}
    (here : contexts context other) (statement : Stmt) :
    lists (first.ofStmt context statement) (second.ofStmt other statement) := by
  rw [Survey.ofStmt.eq_def, Survey.ofStmt.eq_def]
  apply alike.collect (.stmt statement) here
  cases statement with
  | assign location assignments => exact ofAssignments alike here assignments
  | declare location declarations => exact ofDeclarations alike here declarations
  | expression location expression => exact ofExpr alike here expression
  | cond location condition body alternatives otherwise =>
      have inBody := alike.bind condition.fetched here
      have afterBody := alike.bind (Noting.names.ofBlock body) inBody
      have branches := ofBranches alike afterBody alternatives
      cases otherwise with
      | none =>
          exact alike.append (ofExpr alike here condition)
            (alike.append (ofBlock alike inBody body) branches)
      | some block =>
          have last := ofBlock alike
            (alike.bind (Noting.names.ofBranches alternatives) afterBody) block
          exact alike.append (ofExpr alike here condition)
            (alike.append (ofBlock alike inBody body) (alike.append branches last))
  | loop location body => exact ofBlock alike here body
  | whileLoop location condition body =>
      exact alike.append (ofExpr alike here condition) (ofBlock alike here body)
  | doWhile location body condition =>
      exact alike.append (ofBlock alike here body)
        (ofExpr alike (alike.bind _ here) condition)
  | forEach location key value reverse source body =>
      exact alike.append (ofExpr alike here source)
        (ofBlock alike (alike.bind _ here) body)
  | switch location subject clauses =>
      exact alike.append (ofExpr alike here subject) (ofClauses alike here clauses)
  | continueLoop location => exact alike.nil
  | breakLoop location => exact alike.nil
  | returnValue location value =>
      cases value with
      | none => exact alike.nil
      | some value => exact ofExpr alike here value
  | throwValue location value => exact ofExpr alike here value
  | unset location target => exact ofExpr alike here target
  | echo location values => exact ofExprs alike here values
  | require location file => exact ofExpr alike here file
  | tryCatch location body handlers =>
      exact alike.append (ofBlock alike here body)
        (ofHandlers alike (alike.bind _ here) handlers)
  | comment location text => exact alike.nil
  | empty location => exact alike.nil
termination_by structural statement

theorem ofBlock (alike : Alike first second contexts lists) {context : γ} {other : δ}
    (here : contexts context other) (statements : List Stmt) :
    lists (first.ofBlock context statements) (second.ofBlock other statements) := by
  cases statements with
  | nil => exact alike.nil
  | cons statement rest =>
      exact alike.append (ofStmt alike here statement)
        (ofBlock alike (alike.bind _ here) rest)
termination_by structural statements

theorem ofDeclaration (alike : Alike first second contexts lists) {context : γ}
    {other : δ} (here : contexts context other) (declaration : Declaration) :
    lists (first.ofDeclaration context declaration)
      (second.ofDeclaration other declaration) := by
  rcases declaration with ⟨name, _ | value⟩
  · exact alike.collect _ here alike.nil
  · exact alike.collect _ here (ofExpr alike (alike.bind _ here) value)
termination_by structural declaration

theorem ofDeclarations (alike : Alike first second contexts lists) {context : γ}
    {other : δ} (here : contexts context other) (declarations : List Declaration) :
    lists (first.ofDeclarations context declarations)
      (second.ofDeclarations other declarations) := by
  cases declarations with
  | nil => exact alike.nil
  | cons declaration rest =>
      exact alike.append (ofDeclaration alike here declaration)
        (ofDeclarations alike (alike.bind _ here) rest)
termination_by structural declarations

theorem ofBranch (alike : Alike first second contexts lists) {context : γ} {other : δ}
    (here : contexts context other) (branch : Branch) :
    lists (first.ofBranch context branch) (second.ofBranch other branch) := by
  rcases branch with ⟨condition, body⟩
  exact alike.append (ofExpr alike here condition)
    (ofBlock alike (alike.bind _ here) body)
termination_by structural branch

theorem ofBranches (alike : Alike first second contexts lists) {context : γ} {other : δ}
    (here : contexts context other) (branches : List Branch) :
    lists (first.ofBranches context branches) (second.ofBranches other branches) := by
  cases branches with
  | nil => exact alike.nil
  | cons branch rest =>
      exact alike.append (ofBranch alike here branch)
        (ofBranches alike (alike.bind _ (alike.bind _ here)) rest)
termination_by structural branches

theorem ofClause (alike : Alike first second contexts lists) {context : γ} {other : δ}
    (here : contexts context other) (clause : Clause) :
    lists (first.ofClause context clause) (second.ofClause other clause) := by
  cases clause with
  | case test body =>
      exact alike.append (ofExpr alike here test) (ofBlock alike here body)
  | default body => exact ofBlock alike here body
termination_by structural clause

theorem ofClauses (alike : Alike first second contexts lists) {context : γ} {other : δ}
    (here : contexts context other) (clauses : List Clause) :
    lists (first.ofClauses context clauses) (second.ofClauses other clauses) := by
  cases clauses with
  | nil => exact alike.nil
  | cons clause rest =>
      exact alike.append (ofClause alike here clause)
        (ofClauses alike (alike.bind _ here) rest)
termination_by structural clauses

theorem ofHandler (alike : Alike first second contexts lists) {context : γ} {other : δ}
    (here : contexts context other) (handler : Handler) :
    lists (first.ofHandler context handler) (second.ofHandler other handler) := by
  rcases handler with ⟨classes, caught, body⟩
  exact alike.collect _ here (ofBlock alike (alike.bind _ here) body)
termination_by structural handler

theorem ofHandlers (alike : Alike first second contexts lists) {context : γ} {other : δ}
    (here : contexts context other) (handlers : List Handler) :
    lists (first.ofHandlers context handlers) (second.ofHandlers other handlers) := by
  cases handlers with
  | nil => exact alike.nil
  | cons handler rest =>
      exact alike.append (ofHandler alike here handler)
        (ofHandlers alike (alike.bind _ (alike.bind _ here)) rest)
termination_by structural handlers

end

theorem ofMethod (alike : Alike first second contexts lists) {context : γ} {other : δ}
    (here : contexts context other) (method : Method) :
    lists (first.ofMethod context method) (second.ofMethod other method) :=
  alike.collect _ here
    (alike.append (ofParameters alike here method.parameters) (ofBlock alike here _))

end Alike

end Survey

end ZephirPhp
