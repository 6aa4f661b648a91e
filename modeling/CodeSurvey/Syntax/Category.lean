namespace CodeSurvey

/-- A named category of the script grammars. Phrases come in the order in which their rules are
stated, the base language first; lexemes and positional names follow. -/
inductive Category where
  | program
  | exportStatement | namespaceExport | exportClause | exportSpecifier | moduleExportName
  | declaration
  | importWord | importStatement | importClause | fromClause | namespaceImport | namedImports
  | importSpecifier | importAttribute
  | statement | expressionStatement | variableDeclaration | lexicalDeclaration
  | variableDeclarator | statementBlock | elseClause | ifStatement | switchStatement
  | forStatement | forInStatement | forHeader | whileStatement | doStatement | tryStatement
  | withStatement | breakStatement | continueStatement | debuggerStatement | returnStatement
  | throwStatement | emptyStatement | labeledStatement
  | switchBody | switchCase | switchDefault | catchClause | finallyClause
  | parenthesizedExpression | expressions | expression | primaryExpression | yieldExpression
  | object | objectPattern | assignmentPattern | objectAssignmentPattern | array | arrayPattern
  | jsxElement | jsxExpression | jsxChild | jsxOpeningElement | jsxName | nestedIdentifier
  | jsxNamespaceName | jsxElementName | jsxClosingElement | jsxSelfClosingElement
  | jsxAttributeItem | jsxAttributeName | jsxAttribute | jsxString | jsxAttributeValue | jsxTag
  | classExpression | classDeclaration | classHeritage
  | functionExpression | functionDeclaration | generatorFunction | generatorFunctionDeclaration
  | arrowFunction | signature | formalParameter | optionalChain
  | callExpression | newExpression | awaitExpression | memberExpression | subscriptExpression
  | assignableExpression | assignmentExpression | augmentedAssignable
  | augmentedAssignmentExpression | initializer | destructuringPattern | spreadElement
  | ternaryExpression | binaryExpression | unaryExpression | updateExpression
  | sequenceExpression | string | templateString | templateSubstitution | regex
  | plainIdentifier | metaProperty | arguments
  | decorator | decoratorMemberExpression | decoratorCallExpression
  | classBody | fieldDefinition | formalParameters | classStaticBlock | pattern | restPattern
  | methodDefinition | pair | pairPattern | propertyName | computedPropertyName
  | reservedIdentifier | semicolon
  | publicFieldDefinition | jsxStartOpeningElement | importIdentifier | nonNullExpression
  | methodSignature | abstractMethodSignature | functionSignature
  | decoratorParenthesizedExpression | typeAssertion | asExpression | satisfiesExpression
  | instantiationExpression | importRequireClause | extendsClause | extendsClauseSingle
  | implementsClause | ambientDeclaration | abstractClassDeclaration | moduleDeclaration
  | internalModule | moduleBody | importAlias | nestedTypeIdentifier | interfaceDeclaration
  | extendsTypeClause | enumDeclaration | enumBody | enumAssignment | typeAliasDeclaration
  | accessibilityModifier | overrideModifier | requiredParameter | optionalParameter
  | parameterName | omittingTypeAscription | addingTypeAscription | optingTypeAscription
  | typeAscription | annotationMemberExpression | annotationCallExpression | assertsPredicate
  | assertsAscription | typeExpression | tupleParameter | optionalTupleParameter | optionalType
  | restType | tupleTypeMember | constructorType | primaryType | templateType
  | templateLiteralType | inferType | conditionalType | genericType | typePredicate
  | typePredicateAscription | queryMemberExpression | querySubscriptExpression
  | queryCallExpression | queryInstantiationExpression | typeQuery | indexTypeQuery | lookupType
  | mappedTypeClause | literalType | signedNumber | existentialType | flowMaybeType
  | parenthesizedType | predefinedType | typeArguments | objectType | callSignature
  | propertySignature | typeParameters | typeParameter | defaultType | constraint
  | constructSignature | indexSignature | arrayType | tupleType | readonlyType | unionType
  | intersectionType | functionType | typeName
  | hashBangLine | identifier | privatePropertyIdentifier | number | comment | htmlComment
  | doubleQuotedFragment | singleQuotedFragment | escapeSequence
  | regexPattern | regexClose | regexFlags
  | jsxIdentifier | htmlCharacterReference | doubleQuotedJsxFragment | singleQuotedJsxFragment
  | jsxText | staticGet | automaticSemicolon | signatureSemicolon | templateChars | ternaryMark
  | recoveryMark
  | thisWord | superWord | trueWord | falseWord | nullWord | undefinedWord
  | propertyIdentifier | statementIdentifier | shorthandPropertyIdentifier
  | shorthandPropertyIdentifierPattern | typeIdentifier | stringFragment | interfaceBody
  | thisType
deriving DecidableEq, Repr, Inhabited

namespace Category

/-- The name under which a lexeme is reported, and that of a whole program. -/
def name : Category → String
  | program => "program"
  | hashBangLine => "hash_bang_line"
  | identifier => "identifier"
  | privatePropertyIdentifier => "private_property_identifier"
  | number => "number"
  | comment => "comment"
  | htmlComment => "html_comment"
  | escapeSequence => "escape_sequence"
  | doubleQuotedFragment => "unescaped_double_string_fragment"
  | singleQuotedFragment => "unescaped_single_string_fragment"
  | regexPattern => "regex_pattern"
  | regexClose => "/"
  | regexFlags => "regex_flags"
  | jsxIdentifier => "jsx_identifier"
  | htmlCharacterReference => "html_character_reference"
  | doubleQuotedJsxFragment => "unescaped_double_jsx_string_fragment"
  | singleQuotedJsxFragment => "unescaped_single_jsx_string_fragment"
  | jsxText => "jsx_text"
  | staticGet => "static get"
  | automaticSemicolon => "_automatic_semicolon"
  | signatureSemicolon => "_function_signature_automatic_semicolon"
  | templateChars => "_template_chars"
  | ternaryMark => "_ternary_qmark"
  | optionalChain => "optional_chain"
  | thisWord => "this"
  | superWord => "super"
  | trueWord => "true"
  | falseWord => "false"
  | nullWord => "null"
  | undefinedWord => "undefined"
  | _ => ""

end Category

end CodeSurvey
