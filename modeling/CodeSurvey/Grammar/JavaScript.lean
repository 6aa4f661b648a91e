import CodeSurvey.Grammar.Rule

namespace CodeSurvey.Grammar.JavaScript

open Category Rule

def moduleRules : List (Category × Rule) := [
  (program, seq [opt hashBangLine, many statement]),
  (exportStatement, alt [
    seq ["export",
      alt [seq ["*", fromClause], seq [namespaceExport, fromClause], seq [exportClause, fromClause],
        exportClause],
      semicolon],
    seq [many (role .decorator decorator), "export",
      alt [role .declaration declaration,
        seq ["default",
          alt [role .declaration declaration, seq [role .value expression, semicolon]]]]]]),
  (namespaceExport, seq ["*", "as", moduleExportName]),
  (exportClause, seq ["\x7b", commasOpt exportSpecifier, opt ",", "\x7d"]),
  (exportSpecifier, seq [role .name moduleExportName,
    opt (seq ["as", role .otherName moduleExportName])]),
  (moduleExportName, alt [identifier, string]),
  (declaration, alt [functionDeclaration, generatorFunctionDeclaration, classDeclaration,
    lexicalDeclaration, variableDeclaration]),
  (importWord, "import"),
  (importStatement, seq ["import",
    alt [seq [importClause, fromClause], role .source string], opt importAttribute, semicolon]),
  (importClause, alt [namespaceImport, namedImports,
    seq [identifier, opt (seq [",", alt [namespaceImport, namedImports]])]]),
  (fromClause, seq ["from", role .source string]),
  (namespaceImport, seq ["*", "as", identifier]),
  (namedImports, seq ["\x7b", commasOpt importSpecifier, opt ",", "\x7d"]),
  (importSpecifier, alt [role .name identifier,
    seq [role .name moduleExportName, "as", role .otherName identifier]]),
  (importAttribute, seq ["with", object])]

def statementRules : List (Category × Rule) := [
  (statement, alt [exportStatement, importStatement, debuggerStatement, expressionStatement,
    declaration, statementBlock, ifStatement, switchStatement, forStatement, forInStatement,
    whileStatement, doStatement, tryStatement, withStatement, breakStatement, continueStatement,
    returnStatement, throwStatement, emptyStatement, labeledStatement]),
  (expressionStatement, seq [expressions, semicolon]),
  (variableDeclaration, seq ["var", commas variableDeclarator, semicolon]),
  (lexicalDeclaration, seq [role .kind (alt ["let", "const"]), commas variableDeclarator,
    semicolon]),
  (variableDeclarator, seq [role .name (alt [identifier, destructuringPattern]),
    opt initializer]),
  (statementBlock, right (seq ["\x7b", many statement, "\x7d", opt automaticSemicolon])),
  (elseClause, seq ["else", statement]),
  (ifStatement, right (seq ["if", role .condition parenthesizedExpression,
    role .consequence statement, opt (role .alternative elseClause)])),
  (switchStatement, seq ["switch", role .value parenthesizedExpression,
    role .body switchBody]),
  (forStatement, seq ["for", "(",
    alt [role .initializer (alt [lexicalDeclaration, variableDeclaration]),
      seq [role .initializer expressions, ";"],
      role .initializer emptyStatement],
    role .condition (alt [seq [expressions, ";"], emptyStatement]),
    role .increment (opt expressions), ")", role .body statement]),
  (forInStatement, seq ["for", opt "await", forHeader, role .body statement]),
  (forHeader, seq ["(",
    alt [role .left (alt [assignableExpression, parenthesizedExpression]),
      seq [role .kind "var", role .left (alt [identifier, destructuringPattern]),
        opt initializer],
      seq [role .kind (alt ["let", "const"]),
        role .left (alt [identifier, destructuringPattern]), opt automaticSemicolon]],
    role .operator (alt ["in", "of"]), role .right expressions, ")"]),
  (whileStatement, seq ["while", role .condition parenthesizedExpression, role .body statement]),
  (doStatement, right (seq ["do", role .body statement, "while",
    role .condition parenthesizedExpression, opt semicolon])),
  (tryStatement, seq ["try", role .body statementBlock, opt (role .handler catchClause),
    opt (role .finalizer finallyClause)]),
  (withStatement, seq ["with", role .object parenthesizedExpression, role .body statement]),
  (breakStatement, seq ["break", role .label (opt (rename statementIdentifier identifier)),
    semicolon]),
  (continueStatement, seq ["continue", role .label (opt (rename statementIdentifier identifier)),
    semicolon]),
  (debuggerStatement, seq ["debugger", semicolon]),
  (returnStatement, seq ["return", opt expressions, semicolon]),
  (throwStatement, seq ["throw", expressions, semicolon]),
  (emptyStatement, ";"),
  (labeledStatement, dynamic (-1) (seq [
    role .label (rename statementIdentifier (alt [identifier, reservedIdentifier])), ":",
    role .body statement])),
  (switchBody, seq ["\x7b", many (alt [switchCase, switchDefault]), "\x7d"]),
  (switchCase, seq ["case", role .value expressions, ":", role .body (many statement)]),
  (switchDefault, seq ["default", ":", role .body (many statement)]),
  (catchClause, seq ["catch",
    opt (seq ["(", role .parameter (alt [identifier, destructuringPattern]), ")"]),
    role .body statementBlock]),
  (finallyClause, seq ["finally", role .body statementBlock])]

def literalRules : List (Category × Rule) := [
  (parenthesizedExpression, seq ["(", expressions, ")"]),
  (expressions, alt [expression, sequenceExpression]),
  (expression, alt [primaryExpression, jsxTag, assignmentExpression,
    augmentedAssignmentExpression, awaitExpression, unaryExpression, binaryExpression,
    ternaryExpression, updateExpression, newExpression, yieldExpression]),
  (primaryExpression, alt [subscriptExpression, memberExpression, parenthesizedExpression,
    plainIdentifier, rename identifier reservedIdentifier, thisWord, superWord, number, string,
    templateString, regex, trueWord, falseWord, nullWord, object, array, functionExpression,
    arrowFunction, generatorFunction, classExpression, metaProperty, callExpression]),
  (yieldExpression, right (seq ["yield", alt [seq ["*", expression], opt expression]])),
  (object, tier .object (seq ["\x7b",
    commasOpt (opt (alt [pair, spreadElement, methodDefinition,
      rename shorthandPropertyIdentifier (alt [identifier, reservedIdentifier])])),
    "\x7d"])),
  (objectPattern, tier .object (seq ["\x7b",
    commasOpt (opt (alt [pairPattern, restPattern, objectAssignmentPattern,
      rename shorthandPropertyIdentifierPattern (alt [identifier, reservedIdentifier])])),
    "\x7d"])),
  (assignmentPattern, seq [role .left pattern, "=", role .right expression]),
  (objectAssignmentPattern, seq [
    role .left (alt [
      rename shorthandPropertyIdentifierPattern (alt [reservedIdentifier, identifier]),
      destructuringPattern]),
    "=", role .right expression]),
  (array, seq ["[", commasOpt (opt (alt [expression, spreadElement])), "]"]),
  (arrayPattern, seq ["[", commasOpt (opt (alt [pattern, assignmentPattern])), "]"])]

def jsxRules : List (Category × Rule) := [
  (jsxElement, seq [role .openTag jsxOpeningElement, many jsxChild,
    role .closeTag jsxClosingElement]),
  (jsxExpression, seq ["\x7b", opt (alt [expression, sequenceExpression, spreadElement]), "\x7d"]),
  (jsxChild, alt [jsxText, htmlCharacterReference, jsxTag, jsxExpression]),
  (jsxOpeningElement, dynamic (-1) (seq ["<",
    opt (seq [role .name jsxElementName, many (role .jsxAttribute jsxAttributeItem)]), ">"])),
  (jsxName, alt [rename identifier jsxIdentifier, identifier]),
  (nestedIdentifier, tier .member (seq [
    role .object (alt [identifier, rename memberExpression nestedIdentifier]), ".",
    role .property (rename propertyIdentifier identifier)])),
  (jsxNamespaceName, seq [jsxName, ":", jsxName]),
  (jsxElementName, alt [jsxName, rename memberExpression nestedIdentifier, jsxNamespaceName]),
  (jsxClosingElement, seq ["</", opt (role .name jsxElementName), ">"]),
  (jsxSelfClosingElement, seq ["<", role .name jsxElementName,
    many (role .jsxAttribute jsxAttributeItem), "/>"]),
  (jsxAttributeItem, alt [jsxAttribute, jsxExpression]),
  (jsxAttributeName, alt [rename propertyIdentifier jsxName, jsxNamespaceName]),
  (jsxAttribute, seq [jsxAttributeName, opt (seq ["=", jsxAttributeValue])]),
  (jsxString, alt [
    seq ["\"",
      many (alt [rename stringFragment doubleQuotedJsxFragment, htmlCharacterReference]), "\""],
    seq ["'",
      many (alt [rename stringFragment singleQuotedJsxFragment, htmlCharacterReference]), "'"]]),
  (jsxAttributeValue, alt [rename string jsxString, jsxExpression, jsxTag]),
  (jsxTag, alt [jsxElement, jsxSelfClosingElement])]

def functionRules : List (Category × Rule) := [
  (classExpression, tier .literal (seq [many (role .decorator decorator), "class",
    role .name (opt identifier), opt classHeritage, role .body classBody])),
  (classDeclaration, tier .declare (seq [many (role .decorator decorator), "class",
    role .name identifier, opt classHeritage, role .body classBody, opt automaticSemicolon])),
  (classHeritage, seq ["extends", expression]),
  (functionExpression, tier .literal (seq [opt "async", "function", role .name (opt identifier),
    signature, role .body statementBlock])),
  (functionDeclaration, rightTier .declare (seq [opt "async", "function", role .name identifier,
    signature, role .body statementBlock, opt automaticSemicolon])),
  (generatorFunction, tier .literal (seq [opt "async", "function", "*",
    role .name (opt identifier), signature, role .body statementBlock])),
  (generatorFunctionDeclaration, rightTier .declare (seq [opt "async", "function", "*",
    role .name identifier, signature, role .body statementBlock, opt automaticSemicolon])),
  (arrowFunction, seq [opt "async",
    alt [role .parameter (alt [rename identifier reservedIdentifier, identifier]), signature],
    "=>", role .body (alt [expression, statementBlock])]),
  (signature, role .parameters formalParameters),
  (formalParameter, alt [pattern, assignmentPattern])]

def callRules : List (Category × Rule) := [
  (callExpression, alt [
    tier .call (seq [role .function (alt [expression, importWord]), role .arguments arguments]),
    tier .templateCall (seq [role .function (alt [primaryExpression, newExpression]),
      role .arguments templateString]),
    tier .member (seq [role .function primaryExpression, role .optionalChain optionalChain,
      role .arguments arguments])]),
  (newExpression, rightTier .construct (seq ["new",
    role .constructor (alt [primaryExpression, newExpression]),
    role .arguments (opt (dynamic 1 arguments))])),
  (awaitExpression, tier .unaryVoid (seq ["await", expression])),
  (memberExpression, tier .member (seq [
    role .object (alt [expression, primaryExpression, importWord]),
    alt [".", role .optionalChain optionalChain],
    role .property (alt [privatePropertyIdentifier, rename propertyIdentifier identifier])])),
  (subscriptExpression, rightTier .member (seq [
    role .object (alt [expression, primaryExpression]),
    opt (role .optionalChain optionalChain), "[", role .index expressions, "]"])),
  (assignableExpression, alt [memberExpression, subscriptExpression, plainIdentifier,
    rename identifier reservedIdentifier, destructuringPattern]),
  (assignmentExpression, rightTier .assign (seq [
    role .left (alt [parenthesizedExpression, assignableExpression]), "=",
    role .right expression])),
  (augmentedAssignable, alt [memberExpression, subscriptExpression,
    rename identifier reservedIdentifier, identifier, parenthesizedExpression]),
  (augmentedAssignmentExpression, rightTier .assign (seq [role .left augmentedAssignable,
    role .operator (alt ["+=", "-=", "*=", "/=", "%=", "^=", "&=", "|=", ">>=", ">>>=", "<<=",
      "**=", "&&=", "||=", "??="]),
    role .right expression])),
  (initializer, seq ["=", role .value expression]),
  (destructuringPattern, alt [objectPattern, arrayPattern]),
  (spreadElement, seq ["...", expression])]

def infixed (operand : Rule) (operator : String) : Rule :=
  seq [role .left operand, role .operator operator, role .right expression]

def operatorRules : List (Category × Rule) := [
  (ternaryExpression, rightTier .ternary (seq [role .condition expression,
    rename (.text "?") ternaryMark, role .consequence expression, ":",
    role .alternative expression])),
  (binaryExpression, alt [
    leftTier .logicalAnd (infixed expression "&&"),
    leftTier .logicalOr (infixed expression "||"),
    leftTier .binaryShift (infixed expression ">>"),
    leftTier .binaryShift (infixed expression ">>>"),
    leftTier .binaryShift (infixed expression "<<"),
    leftTier .bitwiseAnd (infixed expression "&"),
    leftTier .bitwiseXor (infixed expression "^"),
    leftTier .bitwiseOr (infixed expression "|"),
    leftTier .binaryPlus (infixed expression "+"),
    leftTier .binaryPlus (infixed expression "-"),
    leftTier .binaryTimes (infixed expression "*"),
    leftTier .binaryTimes (infixed expression "/"),
    leftTier .binaryTimes (infixed expression "%"),
    rightTier .binaryExp (infixed expression "**"),
    leftTier .binaryRelation (infixed expression "<"),
    leftTier .binaryRelation (infixed expression "<="),
    leftTier .binaryEquality (infixed expression "=="),
    leftTier .binaryEquality (infixed expression "==="),
    leftTier .binaryEquality (infixed expression "!="),
    leftTier .binaryEquality (infixed expression "!=="),
    leftTier .binaryRelation (infixed expression ">="),
    leftTier .binaryRelation (infixed expression ">"),
    leftTier .ternary (infixed expression "??"),
    leftTier .binaryRelation (infixed expression "instanceof"),
    leftTier .binaryRelation (infixed (alt [expression, privatePropertyIdentifier]) "in")]),
  (unaryExpression, leftTier .unaryVoid (seq [
    role .operator (alt ["!", "~", "-", "+", "typeof", "void", "delete"]),
    role .argument expression])),
  (updateExpression, left (alt [
    seq [role .argument expression, role .operator (alt ["++", "--"])],
    seq [role .operator (alt ["++", "--"]), role .argument expression]])),
  (sequenceExpression, right (commas expression))]

def textRules : List (Category × Rule) := [
  (string, alt [
    seq ["\"", many (alt [rename stringFragment doubleQuotedFragment, escapeSequence]), "\""],
    seq ["'", many (alt [rename stringFragment singleQuotedFragment, escapeSequence]), "'"]]),
  (templateString, seq ["`",
    many (alt [rename stringFragment templateChars, escapeSequence, templateSubstitution]), "`"]),
  (templateSubstitution, seq ["$\x7b", expressions, "\x7d"]),
  (regex, seq ["/", role .pattern regexPattern, rename (.text "/") regexClose,
    opt (role .flags regexFlags)]),
  (plainIdentifier, alt [undefinedWord, identifier]),
  (metaProperty, alt [seq ["new", ".", "target"], seq ["import", ".", "meta"]]),
  (arguments, seq ["(", commasOpt (opt (alt [expression, spreadElement])), ")"])]

def classRules : List (Category × Rule) := [
  (decorator, seq ["@", alt [identifier, rename memberExpression decoratorMemberExpression,
    rename callExpression decoratorCallExpression]]),
  (decoratorMemberExpression, tier .member (seq [
    role .object (alt [identifier, rename memberExpression decoratorMemberExpression]), ".",
    role .property (rename propertyIdentifier identifier)])),
  (decoratorCallExpression, tier .call (seq [
    role .function (alt [identifier, rename memberExpression decoratorMemberExpression]),
    role .arguments arguments])),
  (classBody, seq ["\x7b",
    many (alt [seq [role .member methodDefinition, opt ";"],
      seq [role .member fieldDefinition, semicolon], role .member classStaticBlock, ";"]),
    "\x7d"]),
  (fieldDefinition, seq [many (role .decorator decorator), opt "static",
    role .property propertyName, opt initializer]),
  (formalParameters, seq ["(", opt (seq [commas formalParameter, opt ","]), ")"]),
  (classStaticBlock, seq ["static", opt automaticSemicolon, role .body statementBlock]),
  (pattern, dynamic (-1) (alt [assignableExpression, restPattern])),
  (restPattern, right (seq ["...", assignableExpression])),
  (methodDefinition, seq [many (role .decorator decorator),
    opt (alt ["static", rename (.text "static get") staticGet]),
    opt "async", opt (alt ["get", "set", "*"]), role .name propertyName, signature,
    role .body statementBlock]),
  (pair, seq [role .key propertyName, ":", role .value expression]),
  (pairPattern, seq [role .key propertyName, ":",
    role .value (alt [pattern, assignmentPattern])]),
  (propertyName, alt [rename propertyIdentifier (alt [identifier, reservedIdentifier]),
    privatePropertyIdentifier, string, number, computedPropertyName]),
  (computedPropertyName, seq ["[", expression, "]"]),
  (reservedIdentifier, alt ["get", "set", "async", "static", "export", "let"]),
  (semicolon, alt [automaticSemicolon, ";"])]

def rules : List (Category × Rule) :=
  moduleRules ++ statementRules ++ literalRules ++ jsxRules ++ functionRules ++ callRules ++
    operatorRules ++ textRules ++ classRules

def words : List (Category × String) := [(optionalChain, "?."), (thisWord, "this"),
  (superWord, "super"), (trueWord, "true"), (falseWord, "false"), (nullWord, "null"),
  (undefinedWord, "undefined")]

/-- Lexemes in their places in the order of symbols, each group after a phrase. -/
def placed : List (Category × List Category) := [
  (program, [hashBangLine]),
  (jsxElement, [htmlCharacterReference]),
  (jsxOpeningElement, [jsxIdentifier]),
  (jsxString, [doubleQuotedJsxFragment, singleQuotedJsxFragment]),
  (formalParameter, [optionalChain]),
  (string, [doubleQuotedFragment, singleQuotedFragment, escapeSequence, comment]),
  (regex, [regexPattern, regexFlags, number]),
  (plainIdentifier, [identifier, privatePropertyIdentifier]),
  (metaProperty, [thisWord, superWord, trueWord, falseWord, nullWord, undefinedWord])]

/-- Categories whose rules are put in place of every mention of them. -/
def inlined : List Category := [signature, formalParameter, expressions, semicolon,
  plainIdentifier, reservedIdentifier, jsxAttributeItem, jsxElementName, jsxChild, jsxTag,
  jsxAttributeName, jsxAttributeValue, jsxName, assignableExpression]

/-- Categories whose nodes do not show: their parts belong to the phrase around them. -/
def hidden : List Category := [moduleExportName, declaration, fromClause, statement, forHeader,
  expressions, expression, primaryExpression, jsxChild, jsxName, jsxElementName,
  jsxAttributeItem, jsxAttributeName, jsxAttributeValue, jsxTag, signature, formalParameter,
  assignableExpression, augmentedAssignable, initializer, destructuringPattern,
  plainIdentifier, pattern, propertyName, reservedIdentifier, semicolon]

/-- The orderings of precedence, each from the strongest down. -/
def orderings : List (List Rung) := [
  [Tier.member, Tier.templateCall, Tier.call, updateExpression, Tier.unaryVoid, Tier.binaryExp,
    Tier.binaryTimes, Tier.binaryPlus, Tier.binaryShift, Tier.binaryCompare, Tier.binaryRelation,
    Tier.binaryEquality, Tier.bitwiseAnd, Tier.bitwiseXor, Tier.bitwiseOr, Tier.logicalAnd,
    Tier.logicalOr, Tier.ternary, sequenceExpression, arrowFunction],
  [Tier.assign, primaryExpression],
  [Tier.member, Tier.templateCall, Tier.construct, Tier.call, expression],
  [Tier.declare, Tier.literal],
  [primaryExpression, statementBlock, Tier.object],
  [metaProperty, importWord],
  [importStatement, importWord],
  [exportStatement, primaryExpression],
  [lexicalDeclaration, primaryExpression]]

end CodeSurvey.Grammar.JavaScript
